import KeyRack.Core.Resolver

/-!
# Resolution chains

A successful resolution is a walk through attribute space: each map's identifier
is recorded, the rule selected for it names the next map, and the last map is a
root. The loop accepts exactly the walks that fit the depth limit and repeat no
identifier, so the part of a walk above its first map is itself accepted.
Attribute maps that normalize alike are interchangeable throughout.
-/
namespace KeyRack

open Fallible Loop SortedMap List

/-- The typed entries of a flat map. -/
def stringEntries (entries : List (String × String)) : AttributeEntries :=
  entries.map fun entry => (entry.1, .string entry.2)

/-- Rebuilding a sorted map entry by entry gives its entries back. -/
theorem foldl_insertString (entries : List (String × String)) (set : AttributeSet)
    (sorted : Sorted (set.entries ++ stringEntries entries)) :
    (entries.foldl (fun set (key, value) => set.insertString key value) set).entries =
      set.entries ++ stringEntries entries := by
  induction entries generalizing set with
  | nil => simp [stringEntries]
  | cons head rest ih =>
    obtain ⟨key, value⟩ := head
    have above : ∀ entry ∈ set.entries, entry.1 < key := fun entry member =>
      (pairwise_append.mp sorted).2.2 entry member (key, .string value)
        (by simp [stringEntries])
    have last : (set.insertString key value).entries = set.entries ++ [(key, .string value)] :=
      insertEntry_last key _ _ above
    have whole : set.entries ++ stringEntries ((key, value) :: rest) =
        (set.insertString key value).entries ++ stringEntries rest := by
      simp [last, stringEntries]
    rw [whole] at sorted ⊢
    exact ih _ sorted

theorem sorted_stringEntries (attrs : FlatAttrs) : Sorted (stringEntries attrs.entries) :=
  pairwise_map.mpr attrs.sorted

/-- The later identifiers are checked against a visited set that holds the first one. -/
theorem nodup_unvisited_cons :
    ((lid :: lids).Nodup ∧ ∀ l ∈ lid :: lids, l ∉ visited) ↔
      lid ∉ visited ∧ lids.Nodup ∧ ∀ l ∈ lids, l ∉ lid :: visited := by
  simp only [nodup_cons, mem_cons, forall_eq_or_imp, not_or]
  constructor
  · rintro ⟨⟨new, nodup⟩, fresh, rest⟩
    exact ⟨fresh, nodup, fun l member => ⟨fun same => new (same ▸ member), rest l member⟩⟩
  · rintro ⟨fresh, nodup, rest⟩
    exact ⟨⟨fun again => (rest _ again).1 rfl, nodup⟩, fresh, fun l member => (rest l member).2⟩

variable [UnicodeNormalization]

/-! ### Normalizing twice -/

/-- What an entry costs once it is normalized. -/
private def entryCost (entry : String × String) : Nat :=
  entry.1.utf8ByteSize + 5 + (entry.2.utf8ByteSize + 5)

private def mapCost (entries : List (String × String)) : Nat := (entries.map entryCost).sum

/-- Names and values are in NFC. -/
private def NormalFlat (entries : List (String × String)) : Prop :=
  ∀ entry ∈ entries, normalizeText entry.1 = entry.1 ∧ normalizeText entry.2 = entry.2

private theorem normalizeFlatEntries_spec (entries : List (String × String))
    (normalized result : FlatAttrs) (budget left : Nat)
    (returned : normalizeFlatEntries entries normalized budget = .ok (result, left))
    (normal : NormalFlat normalized.entries) :
    NormalFlat result.entries ∧
      mapCost result.entries + left = mapCost normalized.entries + budget := by
  induction entries generalizing normalized budget with
  | nil =>
    cases returned
    exact ⟨normal, rfl⟩
  | cons head _ ih =>
    obtain ⟨key, value⟩ := head
    simp only [normalizeFlatEntries, eq_ok, Bool.not_eq_true] at returned
    obtain ⟨⟨_, _⟩, keyText, _, fresh, ⟨_, _⟩, valueText, tail⟩ := returned
    obtain ⟨_, rfl, keyFits, rfl⟩ := text_eq_ok.mp keyText
    obtain ⟨_, rfl, valueFits, rfl⟩ := text_eq_ok.mp valueText
    have grown :
        NormalFlat (normalized.insert (normalizeText key) (normalizeText value)).entries := by
      intro entry member
      rcases mem_insertEntry _ _ _ _ member with rfl | old
      · exact ⟨normalizeText_idem key, normalizeText_idem value⟩
      · exact normal entry old
    obtain ⟨resultNormal, cost⟩ := ih _ _ tail grown
    -- a sorted insertion of a fresh name adds the cost of that entry alone
    have added : mapCost (normalized.insert (normalizeText key) (normalizeText value)).entries =
        entryCost (normalizeText key, normalizeText value) + mapCost normalized.entries := by
      have perm := insertEntry_perm (normalizeText key) (normalizeText value)
        normalized.entries fresh
      simpa [mapCost, SortedMap.insert] using (perm.map entryCost).sum_nat
    rw [added] at cost
    simp only [entryCost] at cost
    exact ⟨resultNormal, by omega⟩

/-- Entries in NFC that lie above everything collected so far are taken over. -/
private theorem normalizeFlatEntries_normal (entries : List (String × String))
    (normalized whole : FlatAttrs) (budget : Nat)
    (same : whole.entries = normalized.entries ++ entries) (normal : NormalFlat entries)
    (fits : mapCost entries ≤ budget) (small : budget ≤ maxIdentityBytes) :
    normalizeFlatEntries entries normalized budget = .ok (whole, budget - mapCost entries) := by
  induction entries generalizing normalized budget with
  | nil =>
    have all : normalized = whole := SortedMap.ext (by simpa using same.symm)
    subst all
    simp [normalizeFlatEntries, mapCost]
  | cons head rest ih =>
    obtain ⟨key, value⟩ := head
    obtain ⟨keyNormal, valueNormal⟩ := normal (key, value) (by simp)
    have split : mapCost ((key, value) :: rest) = entryCost (key, value) + mapCost rest := rfl
    simp only [entryCost] at split
    -- the head's name is above every name before it, by the order of the whole map
    have above : ∀ entry ∈ normalized.entries, entry.1 < key := by
      intro entry member
      have sorted := whole.sorted
      rw [same] at sorted
      exact (pairwise_append.mp sorted).2.2 entry member (key, value) (by simp)
    have fresh : normalized.containsKey key = false :=
      (hasKey_eq_false_iff key _).mpr fun entry member => ne_of_lt (above entry member)
    have last : (normalized.insert key value).entries = normalized.entries ++ [(key, value)] :=
      insertEntry_last key value _ above
    have keyText : text key budget = .ok (key, budget - (key.utf8ByteSize + 5)) :=
      text_eq_ok.mpr ⟨by omega, keyNormal.symm, by omega, rfl⟩
    have valueText : text value (budget - (key.utf8ByteSize + 5)) =
        .ok (value, budget - (key.utf8ByteSize + 5) - (value.utf8ByteSize + 5)) :=
      text_eq_ok.mpr ⟨by omega, valueNormal.symm, by omega, rfl⟩
    have tail := ih (normalized.insert key value)
      (budget - (key.utf8ByteSize + 5) - (value.utf8ByteSize + 5))
      (by rw [last, same, append_assoc]; rfl)
      (fun entry member => normal entry (by simp [member])) (by omega) (by omega)
    simp only [normalizeFlatEntries, eq_ok, Bool.not_eq_true]
    refine ⟨_, keyText, (), fresh, _, valueText, ?_⟩
    rw [tail]
    congr 2
    omega

variable {attrs normalized : FlatAttrs}

theorem normalizeFlat_idem (returned : normalizeFlat attrs = .ok normalized) :
    normalizeFlat normalized = .ok normalized := by
  simp only [normalizeFlat, eq_ok] at returned ⊢
  obtain ⟨⟨result, _⟩, inner, rfl⟩ := returned
  obtain ⟨normal, _⟩ := normalizeFlatEntries_spec _ _ _ _ _ inner (by simp [NormalFlat, empty])
  -- the output costs no more than was charged for it, so it fits the same budget
  have start : mapCost (empty : FlatAttrs).entries = 0 := rfl
  exact ⟨_, normalizeFlatEntries_normal result.entries empty result maxIdentityBytes
    (by simp [empty]) normal (by omega) (le_refl _), rfl⟩

/-! ### Identifiers and rule selection depend on the normalized map only -/

/-- On string values the typed normalization runs in step with the flat one. -/
theorem normalizeEntries_stringEntries (depth : Nat) (entries : List (String × String))
    (normalized : FlatAttrs) (budget : Nat) :
    normalizeEntries depth (stringEntries entries) (stringEntries normalized.entries) budget =
      (normalizeFlatEntries entries normalized budget).map
        fun (out, left) => (stringEntries out.entries, left) := by
  induction entries generalizing normalized budget with
  | nil => rfl
  | cons head _ ih =>
    obtain ⟨key, value⟩ := head
    simp only [stringEntries, map_cons, normalizeEntries, normalizeFlatEntries]
    cases text key budget with
    | error => rfl
    | ok keyText =>
      obtain ⟨name, b₁⟩ := keyText
      have seen : hasKey name (normalized.entries.map fun entry =>
          (entry.1, AttributeValue.string entry.2)) = normalized.containsKey name :=
        hasKey_map AttributeValue.string name normalized.entries
      simp only [bind, Except.bind, seen]
      cases refuseIf (normalized.containsKey name = true)
          (CanonicalizationError.duplicateName name) with
      | error => rfl
      | ok =>
        simp only [normalizeValue, bind, Except.bind]
        cases text value b₁ with
        | error => rfl
        | ok valueText =>
          obtain ⟨value', b₂⟩ := valueText
          have inserted := insertEntry_map AttributeValue.string name value' normalized.entries
          simp only [pure, Except.pure, inserted]
          exact ih (normalized.insert name value') b₂

/-- The typed set of a flat map. -/
def typedSet (attrs : FlatAttrs) : AttributeSet where
  entries := stringEntries attrs.entries
  sorted := sorted_stringEntries attrs
  ordered := (orderedEntries_iff _).mpr (by
    intro _ member
    obtain ⟨_, _, rfl⟩ := mem_map.mp member
    trivial)

/-- A flat map is normalized as the typed set that is collected from it. -/
theorem normalizeAttributes_collected :
    normalizeAttributes (attrs.entries.foldl (fun set x => set.insertString x.1 x.2) .new) =
      .ok out ↔ ∃ normalized, normalizeFlat attrs = .ok normalized ∧ out = typedSet normalized := by
  have built : (attrs.entries.foldl (fun set x => set.insertString x.1 x.2)
      AttributeSet.new).entries = stringEntries attrs.entries :=
    foldl_insertString attrs.entries .new (sorted_stringEntries attrs)
  -- the depth limit cannot refuse a map without records
  have inStep : normalizeMap (stringEntries attrs.entries) 0 maxIdentityBytes = _ :=
    normalizeEntries_stringEntries 0 attrs.entries empty maxIdentityBytes
  rw [normalizeAttributes_eq_ok, built, inStep, normalizeFlat]
  cases normalizeFlatEntries attrs.entries empty maxIdentityBytes with
  | error => simp [Except.map, bind, Except.bind]
  | ok result => simp [Except.map, bind, Except.bind, pure, Except.pure, AttributeSet.ext_iff,
      typedSet, eq_comm]

theorem matchRule_congr (same : normalizeFlat other = normalizeFlat attrs)
    (rules : RuleRegistry) : rules.matchRule other = rules.matchRule attrs := by
  have pattern : normalizePattern other = normalizePattern attrs := by
    simp only [normalizePattern, same]
  have matching (rule : RoutingRule) : rule.matches other = rule.matches attrs := by
    simp only [RoutingRule.matches, pattern]
  have bindings (rule : RoutingRule) : rule.extractBindings other = rule.extractBindings attrs := by
    simp only [RoutingRule.extractBindings, pattern]
  simp only [RuleRegistry.matchRule, matching, bindings]

theorem matchRule_normalized (returned : normalizeFlat attrs = .ok normalized)
    (rules : RuleRegistry) : rules.matchRule normalized = rules.matchRule attrs :=
  matchRule_congr ((normalizeFlat_idem returned).trans returned.symm) rules

variable [Blake3]

theorem lidFromFlatAttrs_eq_ok :
    lidFromFlatAttrs attrs version = .ok lid ↔
      ∃ normalized, normalizeFlat attrs = .ok normalized ∧
        lid = Lid.derive version (encodeMap (stringEntries normalized.entries)) := by
  simp only [lidFromFlatAttrs, canonicalize, eq_ok, normalizeAttributes_collected]
  constructor
  · rintro ⟨_, ⟨_, ⟨normalized, returned, rfl⟩, rfl⟩, rfl⟩
    exact ⟨normalized, returned, rfl⟩
  · rintro ⟨normalized, returned, rfl⟩
    exact ⟨_, ⟨_, ⟨normalized, returned, rfl⟩, rfl⟩, rfl⟩

theorem lidFromFlatAttrs_normalized (returned : normalizeFlat attrs = .ok normalized)
    (version : CanonicalizationVersion) (lid : Lid) :
    lidFromFlatAttrs normalized version = .ok lid ↔ lidFromFlatAttrs attrs version = .ok lid := by
  rw [lidFromFlatAttrs_eq_ok, lidFromFlatAttrs_eq_ok, returned, normalizeFlat_idem returned]

/-! ### Walks -/

/-- The rule selected for these attributes is a root rule. -/
def MatchesRoot (rules : RuleRegistry) (attrs : FlatAttrs) : Prop :=
  ∃ m, rules.matchRule attrs = some m ∧ m.rule.parent = .root

/-- The rule selected for these attributes gives `parent`: the attachment of its
    namespace at a boundary, the interpolated parent pattern otherwise. -/
def ParentOf (rules : RuleRegistry) (attrs parent : FlatAttrs) : Prop :=
  ∃ m, rules.matchRule attrs = some m ∧
    (m.rule.parent = .attachment ∧ m.namespace.attachment = some parent ∨
      (∃ pattern, m.rule.parent = .pattern pattern) ∧ m.rule.resolveParent m.bindings = some parent)

/-- From `attrs` through the maps `ancestors` up to a root, with the identifiers
    of all of them. -/
inductive Walk (rules : RuleRegistry) (version : CanonicalizationVersion) :
    FlatAttrs → List FlatAttrs → List Lid → Prop where
  | root {attrs lid} (identifies : lidFromFlatAttrs attrs version = .ok lid)
      (matched : MatchesRoot rules attrs) : Walk rules version attrs [] [lid]
  | parent {attrs lid parent ancestors lids}
      (identifies : lidFromFlatAttrs attrs version = .ok lid)
      (matched : ParentOf rules attrs parent) (rest : Walk rules version parent ancestors lids) :
      Walk rules version attrs (parent :: ancestors) (lid :: lids)

variable {rules : RuleRegistry} {config : ResolverConfig}

/-- Only the first map of a walk can be unnormalized input. -/
theorem Walk.normalized_iff (returned : normalizeFlat attrs = .ok normalized) :
    Walk rules version normalized ancestors lids ↔ Walk rules version attrs ancestors lids := by
  have lid := lidFromFlatAttrs_normalized returned version
  have rule := matchRule_normalized returned rules
  constructor
  · intro walk
    cases walk with
    | root identifies =>
      exact .root ((lid _).mp identifies) (by rwa [MatchesRoot, ← rule])
    | parent identifies _ rest =>
      exact .parent ((lid _).mp identifies) (by rwa [ParentOf, ← rule]) rest
  · intro walk
    cases walk with
    | root identifies =>
      exact .root ((lid _).mpr identifies) (by rwa [MatchesRoot, rule])
    | parent identifies _ rest =>
      exact .parent ((lid _).mpr identifies) (by rwa [ParentOf, rule]) rest

/-! ### One iteration of the loop -/

variable {chain : List Lid}

theorem resolveStep_eq_done :
    resolveStep rules config s = .ok (.done chain) ↔
      s.depth < config.maxDepth ∧ MatchesRoot rules s.currentAttrs ∧
        ∃ lid, lidFromFlatAttrs s.currentAttrs config.canonicalizationVersion = .ok lid ∧
          lid ∉ s.visited ∧ chain = s.chain ++ [lid] := by
  simp only [resolveStep, eq_ok, RoutingRule.isRoot, RoutingRule.isAttachmentBoundary, beq_iff_eq,
    MatchesRoot]
  constructor
  · rintro ⟨_, _, lid, identifies, _, fresh, m, matched, rest⟩
    split at rest
    next isRoot =>
      cases rest
      exact ⟨by omega, ⟨m, matched, isRoot⟩, lid, identifies, fresh, rfl⟩
    next =>
      -- the other two branches go round again
      split at rest <;>
        simp only [eq_ok, reduceCtorEq, and_false, exists_false] at rest
  · rintro ⟨_, ⟨m, matched, isRoot⟩, lid, identifies, fresh, rfl⟩
    refine ⟨(), by omega, lid, identifies, (), fresh, m, matched, ?_⟩
    rw [if_pos isRoot]
    rfl

theorem resolveStep_eq_next :
    resolveStep rules config s = .ok (.next s') ↔
      s.depth < config.maxDepth ∧ ParentOf rules s.currentAttrs s'.currentAttrs ∧
        ∃ lid, lidFromFlatAttrs s.currentAttrs config.canonicalizationVersion = .ok lid ∧
          lid ∉ s.visited ∧
          s' = ⟨s.chain ++ [lid], lid :: s.visited, s'.currentAttrs, s.depth + 1⟩ := by
  simp only [resolveStep, eq_ok, RoutingRule.isRoot, RoutingRule.isAttachmentBoundary, beq_iff_eq,
    ParentOf]
  constructor
  · rintro ⟨_, _, lid, identifies, _, fresh, m, matched, rest⟩
    split at rest
    next => simp [pure_eq_ok] at rest
    next notRoot =>
      split at rest
      next boundary =>
        simp only [eq_ok, Control.next.injEq] at rest
        obtain ⟨_, attached, rfl⟩ := rest
        exact ⟨by omega, ⟨m, matched, Or.inl ⟨boundary, attached⟩⟩, lid, identifies, fresh, rfl⟩
      next notBoundary =>
        simp only [eq_ok, Control.next.injEq] at rest
        obtain ⟨_, resolved, rfl⟩ := rest
        have pattern : ∃ pattern, m.rule.parent = .pattern pattern := by
          cases given : m.rule.parent with
          | root => exact absurd given notRoot
          | attachment => exact absurd given notBoundary
          | pattern p => exact ⟨p, rfl⟩
        exact ⟨by omega, ⟨m, matched, Or.inr ⟨pattern, resolved⟩⟩, lid, identifies, fresh, rfl⟩
  · rintro ⟨_, ⟨m, matched, given⟩, lid, identifies, fresh, same⟩
    refine ⟨(), by omega, lid, identifies, (), fresh, m, matched, ?_⟩
    rw [same]
    rcases given with ⟨boundary, attached⟩ | ⟨⟨_, given⟩, resolved⟩
    · rw [if_neg (by simp [boundary]), if_pos boundary, attached]
      rfl
    · rw [if_neg (by simp [given]), if_neg (by simp [given]), resolved]
      rfl

/-! ### Whole resolutions -/

/-- What the loop still accepts from a given state. -/
structure Admits (config : ResolverConfig) (s : ResolverState) (fuel : Nat) (lids : List Lid) :
    Prop where
  nodup : lids.Nodup
  unvisited : ∀ lid ∈ lids, lid ∉ s.visited
  depth : s.depth + lids.length ≤ config.maxDepth
  iterations : lids.length ≤ fuel

/-- The loop returns exactly the admitted walks from its current map. -/
theorem run_resolveStep_eq_ok :
    run (resolveStep rules config) fuel s = some (.ok chain) ↔
      ∃ ancestors lids, Walk rules config.canonicalizationVersion s.currentAttrs ancestors lids ∧
        Admits config s fuel lids ∧ chain = s.chain ++ lids := by
  -- on the iterations left; the state carries the visited set and the depth along
  induction fuel generalizing s with
  | zero =>
    simp only [run, reduceCtorEq, false_iff, not_exists, not_and]
    intro ancestors lids walk admits
    have none := admits.iterations
    cases walk <;> simp at none
  | succ _ ih =>
    simp only [run]
    constructor
    · intro returned
      split at returned
      next => simp at returned
      next left =>
        cases returned
        obtain ⟨shallow, matched, lid, identifies, fresh, rfl⟩ := resolveStep_eq_done.mp left
        refine ⟨[], [lid], .root identifies matched, ?_, rfl⟩
        exact ⟨by simp, by simpa using fresh, Nat.succ_le_of_lt shallow, by simp⟩
      next round =>
        obtain ⟨_, matched, lid, identifies, fresh, same⟩ := resolveStep_eq_next.mp round
        obtain ⟨_, lids, walk, admits, rfl⟩ := ih.mp returned
        rw [same] at admits ⊢
        have fit := admits.depth
        have bound := admits.iterations
        obtain ⟨nodup, unvisited⟩ :=
          nodup_unvisited_cons.mpr ⟨fresh, admits.nodup, admits.unvisited⟩
        refine ⟨_, lid :: lids, .parent identifies matched walk, ?_, by simp⟩
        dsimp only at fit
        exact ⟨nodup, unvisited, by simp only [length_cons]; omega, by simpa using bound⟩
    · rintro ⟨ancestors, lids, walk, admits, rfl⟩
      cases walk with
      | root identifies matched =>
        rename_i lid
        have fresh := admits.unvisited lid (by simp)
        have shallow : s.depth < config.maxDepth := Nat.lt_of_succ_le admits.depth
        have left : resolveStep rules config s = .ok (.done (s.chain ++ [lid])) :=
          resolveStep_eq_done.mpr ⟨shallow, matched, lid, identifies, fresh, rfl⟩
        rw [left]
      | parent identifies matched rest =>
        rename_i lid parent ancestors lids
        obtain ⟨fresh, nodup, unvisited⟩ := nodup_unvisited_cons.mp ⟨admits.nodup, admits.unvisited⟩
        have fit := admits.depth
        have bound := admits.iterations
        simp only [length_cons] at fit bound
        have round : resolveStep rules config s =
            .ok (.next ⟨s.chain ++ [lid], lid :: s.visited, parent, s.depth + 1⟩) :=
          resolveStep_eq_next.mpr ⟨by omega, matched, lid, identifies, fresh, rfl⟩
        rw [round]
        refine ih.mpr ⟨ancestors, lids, rest, ?_, by simp⟩
        exact ⟨nodup, unvisited, by dsimp only; omega, by omega⟩

theorem resolveChain_eq_ok :
    resolveChain fuel rules attrs config = some (.ok chain) ↔
      ∃ ancestors, Walk rules config.canonicalizationVersion attrs ancestors chain ∧
        chain.Nodup ∧ chain.length ≤ config.maxDepth ∧ chain.length ≤ fuel := by
  cases normalize : normalizeFlat attrs with
  | error =>
    simp only [resolveChain, normalize, Option.some.injEq, reduceCtorEq, false_iff, not_exists,
      not_and]
    intro ancestors walk
    -- the first identifier of a walk already needs the map to normalize
    have accepted : ∃ lid, lidFromFlatAttrs attrs config.canonicalizationVersion = .ok lid := by
      cases walk with
      | root identifies _ | parent identifies _ _ => exact ⟨_, identifies⟩
    obtain ⟨_, identifies⟩ := accepted
    obtain ⟨_, returned, _⟩ := lidFromFlatAttrs_eq_ok.mp identifies
    simp [normalize] at returned
  | ok =>
    simp only [resolveChain, normalize, run_resolveStep_eq_ok, nil_append]
    constructor
    · rintro ⟨ancestors, _, walk, admits, rfl⟩
      have depth := admits.depth
      exact ⟨ancestors, (Walk.normalized_iff normalize).mp walk, admits.nodup, by simpa using depth,
        admits.iterations⟩
    · rintro ⟨ancestors, walk, nodup, depth, iterations⟩
      exact ⟨ancestors, chain, (Walk.normalized_iff normalize).mpr walk,
        ⟨nodup, by simp, by simpa using depth, iterations⟩, rfl⟩

theorem resolveChain_returns (attrs : FlatAttrs) :
    ∃ result, ∀ fuel, config.maxDepth < fuel →
      resolveChain fuel rules attrs config = some result := by
  cases normalize : normalizeFlat attrs with
  | error e =>
    refine ⟨.error (.invalidIdentity e), fun _ _ => ?_⟩
    simp only [resolveChain, normalize]
  | ok normalized =>
    simp only [resolveChain, normalize]
    -- the depth still available falls with every further iteration
    have lowers (s s' : ResolverState) (round : resolveStep rules config s = .ok (.next s')) :
        config.maxDepth - s'.depth < config.maxDepth - s.depth := by
      obtain ⟨_, _, _, _, _, same⟩ := resolveStep_eq_next.mp round
      have next := congrArg ResolverState.depth same
      dsimp only at next
      omega
    let start : ResolverState := ⟨[], [], normalized, 0⟩
    obtain ⟨result, returned⟩ := run_returns (fun _ _ (_ : True) _ => trivial)
      (fun s : ResolverState => config.maxDepth - s.depth) (fun s s' _ => lowers s s')
      (s := start) trivial (Nat.lt_succ_self _)
    exact ⟨result, fun _ enough => run_mono (Nat.succ_le_of_lt enough) returned⟩

/-- **Resolution**: the loop terminates; a returned chain is the list of
    identifiers of a walk from the given attributes to a root, without repetition
    and within the depth limit; and the first parent resolves to its tail. -/
theorem resolveChain_walk (rules : RuleRegistry) (attrs : FlatAttrs) (config : ResolverConfig) :
    (∃ result, ∀ fuel, config.maxDepth < fuel →
      resolveChain fuel rules attrs config = some result) ∧
    ∀ fuel chain, resolveChain fuel rules attrs config = some (.ok chain) →
      chain ≠ [] ∧ chain.Nodup ∧ chain.length ≤ config.maxDepth ∧
      ∃ ancestors, Walk rules config.canonicalizationVersion attrs ancestors chain ∧
        ∀ parent above, ancestors = parent :: above →
          resolveChain fuel rules parent config = some (.ok chain.tail) := by
  refine ⟨resolveChain_returns attrs, ?_⟩
  intro _ _ returned
  obtain ⟨ancestors, walk, nodup, depth, iterations⟩ := resolveChain_eq_ok.mp returned
  refine ⟨?_, nodup, depth, ancestors, walk, ?_⟩
  · cases walk <;> simp
  · rintro parent above rfl
    cases walk with
    | parent _ _ rest =>
      simp only [length_cons] at depth iterations
      -- the rest of an accepted walk is shorter and repeats nothing either
      rw [tail_cons]
      exact resolveChain_eq_ok.mpr ⟨above, rest, nodup.of_cons, by omega, by omega⟩

/-- Data keys of a tenant hang below the tenant's key, which is a root. -/
def tenantRules : RuleRegistry where
  namespaces := [{
    name := "app"
    attachment := none
    maxDepth := 16
    routingRules := [
      { matchPattern := .ofList [("kind", "dek"), ("t", "$T")]
        parent := .pattern (.ofList [("t", "$T")]), priority := 0, keySpec := none },
      { matchPattern := .ofList [("t", "$T")], parent := .root, priority := 0, keySpec := none }] }]

def tenantConfig : ResolverConfig := ⟨4, .v2⟩

def dekAttrs : FlatAttrs := .ofList [("kind", "dek"), ("t", "a")]

/-- The first 32 bytes of the two canonical forms behind the version tag. -/
def dekLid : Lid :=
  ⟨#v[2, 0, 0, 0, 1, 4, 0, 0, 0, 107, 105, 110, 100, 1, 3, 0, 0, 0, 100, 101, 107, 1, 1, 0, 0, 0,
    116, 1, 1, 0, 0, 0]⟩

def tenantLid : Lid :=
  ⟨#v[2, 0, 0, 0, 1, 1, 0, 0, 0, 116, 1, 1, 0, 0, 0, 97, 0, 0, 0, 0, 0, 0, 0, 0, 0, 0, 0, 0, 0, 0,
    0, 0]⟩

omit [UnicodeNormalization] [Blake3] in
theorem resolveChain_walk_tenant :
    letI := asciiNormalization
    letI := truncatingHash
    ∃ ancestors, Walk tenantRules .v2 dekAttrs ancestors [dekLid, tenantLid] ∧
      ∀ parent above, ancestors = parent :: above →
        resolveChain 5 tenantRules parent tenantConfig = some (.ok [tenantLid]) :=
  letI := asciiNormalization
  letI := truncatingHash
  ((resolveChain_walk tenantRules dekAttrs tenantConfig).2 5 [dekLid, tenantLid]
    (by decide)).2.2.2

end KeyRack
