import KeyRack.Properties.RuleSelection

/-!
# The depth of a walk

A resolution stops with a depth error exactly where the walk goes on past the depth of the
resolver's configuration. The depth that the matched namespace declares plays no part in it.
-/
namespace KeyRack

open Fallible Loop List

variable [UnicodeNormalization] [Blake3]

/-! ### Climbing -/

/-- From the attributes up along rules that name a parent, with the identifiers passed. -/
inductive Climb (rules : RuleRegistry) (version : CanonicalizationVersion) :
    FlatAttrs → List Lid → Prop where
  | here {attrs} : Climb rules version attrs []
  | up {attrs lid parent lids} (identifies : lidFromFlatAttrs attrs version = .ok lid)
      (matched : ParentOf rules attrs parent) (rest : Climb rules version parent lids) :
      Climb rules version attrs (lid :: lids)

/-- So many maps are passed, with different identifiers, and another one is named. -/
def LongerThan (rules : RuleRegistry) (version : CanonicalizationVersion) (attrs : FlatAttrs)
    (depth : Nat) : Prop :=
  ∃ lids, Climb rules version attrs lids ∧ lids.Nodup ∧ lids.length = depth

variable {rules : RuleRegistry} {config : ResolverConfig}
  {attrs : FlatAttrs} {chain : List Lid} {depth : Nat}

theorem Climb.take (climb : Climb rules version attrs lids) (n : Nat) :
    Climb rules version attrs (lids.take n) := by
  induction climb generalizing n with
  | here =>
    rw [take_nil]
    exact .here
  | up identifies matched _ ih =>
    cases n with
    | zero => exact .here
    | succ n => exact .up identifies matched (ih n)

/-- All but the last map of a walk are climbed past. -/
theorem Walk.climb (walk : Walk rules version attrs ancestors chain)
    (short : depth < chain.length) : Climb rules version attrs (chain.take depth) := by
  induction walk generalizing depth with
  | root =>
    obtain rfl : depth = 0 := Nat.lt_one_iff.mp short
    exact .here
  | parent identifies matched _ ih =>
    cases depth with
    | zero => exact .here
    | succ => exact .up identifies matched (ih (Nat.lt_of_succ_lt_succ short))

theorem LongerThan.of_le (longer : LongerThan rules version attrs depth)
    (le : less ≤ depth) : LongerThan rules version attrs less := by
  obtain ⟨_, climb, nodup, rfl⟩ := longer
  exact ⟨_, climb.take less, nodup.sublist (take_sublist _ _), length_take_of_le le⟩

/-- The errors of an iteration. -/
theorem resolveStep_error (failed : resolveStep rules config s = .error e) :
    (config.maxDepth ≤ s.depth ∧ e = .depthLimitExceeded config.maxDepth) ∨
    s.depth < config.maxDepth ∧
      ((∃ lid, lidFromFlatAttrs s.currentAttrs config.canonicalizationVersion = .ok lid ∧
        lid ∈ s.visited ∧ e = .cycleDetected lid) ∨
      (∃ cause, e = .invalidIdentity cause) ∨ (∃ attrs, e = .noRuleMatches attrs) ∨
      ∃ text, e = .other text) := by
  simp only [resolveStep, bind_eq_error, refuseIf_eq_error, refuseIf_eq_ok, okOr_eq_error] at failed
  rcases failed with ⟨deep, rfl⟩ | ⟨_, shallow, failed⟩
  · exact Or.inl ⟨deep, rfl⟩
  refine Or.inr ⟨Nat.not_le.mp shallow, ?_⟩
  rcases failed with unidentified | ⟨lid, identifies, ⟨visited, rfl⟩ | ⟨_, _, failed⟩⟩
  · simp only [lidFromFlatAttrs, bind_eq_error, pure_eq_error, and_false, exists_false, or_false,
      mapErr] at unidentified
    split at unidentified
    · cases unidentified
    · cases unidentified
      exact Or.inr (Or.inl ⟨_, rfl⟩)
  · exact Or.inl ⟨lid, identifies, visited, rfl⟩
  rcases failed with ⟨_, rfl⟩ | ⟨m, _, failed⟩
  · exact Or.inr (Or.inr (Or.inl ⟨_, rfl⟩))
  have text : ∃ text, e = .other text := by
    split at failed
    · cases failed
    · split at failed
      · simp only [bind_eq_error, okOr_eq_error, pure_eq_error, and_false, exists_false,
          or_false] at failed
        exact ⟨_, failed.2.symm⟩
      · simp only [bind_eq_error, okOr_eq_error, pure_eq_error, and_false, exists_false,
          or_false] at failed
        exact ⟨_, failed.2.symm⟩
  exact Or.inr (Or.inr (Or.inr text))

theorem resolveStep_deep (deep : config.maxDepth ≤ s.depth) :
    resolveStep rules config s = .error (.depthLimitExceeded config.maxDepth) := by
  rw [resolveStep, refuseIf, if_pos deep]
  rfl

/-- The loop ends for its depth where it climbs until the depth is used up. -/
theorem run_resolveStep_eq_depth (enough : config.maxDepth - s.depth < fuel) :
    run (resolveStep rules config) fuel s = some (.error (.depthLimitExceeded limit)) ↔
      limit = config.maxDepth ∧ ∃ lids,
        Climb rules config.canonicalizationVersion s.currentAttrs lids ∧ lids.Nodup ∧
        (∀ lid ∈ lids, lid ∉ s.visited) ∧ lids.length = config.maxDepth - s.depth := by
  induction fuel generalizing s with
  | zero => cases enough
  | succ _ ih =>
    rw [run]
    by_cases deep : config.maxDepth ≤ s.depth
    · rw [resolveStep_deep deep]
      simp only [Option.some.injEq, Except.error.injEq, KeyRackError.depthLimitExceeded.injEq,
        eq_comm, Nat.sub_eq_zero_of_le deep]
      refine (and_iff_left ⟨[], .here, ?_⟩).symm
      simp
    · -- whoever climbs on goes round again
      have round {lids : List Lid}
          (climb : Climb rules config.canonicalizationVersion s.currentAttrs lids)
          (unvisited : ∀ lid ∈ lids, lid ∉ s.visited)
          (all : lids.length = config.maxDepth - s.depth) : ∃ lid lids' parent,
          lids = lid :: lids' ∧ Climb rules config.canonicalizationVersion parent lids' ∧
          resolveStep rules config s =
            .ok (.next ⟨s.chain ++ [lid], lid :: s.visited, parent, s.depth + 1⟩) := by
        cases climb with
        | here =>
          simp only [length_nil] at all
          omega
        | up identifies matched rest =>
          exact ⟨_, _, _, rfl, rest, resolveStep_eq_next.mpr ⟨by omega, matched, _, identifies,
            unvisited _ (by simp), rfl⟩⟩
      split
      next failed =>
        constructor
        · rintro ⟨⟩
          rcases resolveStep_error failed with ⟨deep', _⟩ | ⟨_, others⟩
          · exact absurd deep' deep
          · simp at others
        · rintro ⟨_, _, climb, _, unvisited, all⟩
          obtain ⟨_, _, _, _, _, next⟩ := round climb unvisited all
          rw [next] at failed
          cases failed
      next left =>
        refine ⟨by rintro ⟨⟩, ?_⟩
        rintro ⟨_, _, climb, _, unvisited, all⟩
        obtain ⟨_, _, _, _, _, next⟩ := round climb unvisited all
        rw [next] at left
        cases left
      next s' next =>
        obtain ⟨_, matched, lid, identifies, fresh, same⟩ := resolveStep_eq_next.mp next
        have deeper : s'.depth = s.depth + 1 := congrArg ResolverState.depth same
        have visited : s'.visited = lid :: s.visited := congrArg ResolverState.visited same
        rw [ih (by omega)]
        refine and_congr_right fun _ => ⟨?_, ?_⟩
        · rintro ⟨lids, climb, nodup, unvisited, all⟩
          rw [visited] at unvisited
          obtain ⟨nodup, unvisited⟩ := nodup_unvisited_cons.mpr ⟨fresh, nodup, unvisited⟩
          refine ⟨lid :: lids, .up identifies matched climb, nodup, unvisited, ?_⟩
          rw [length_cons, all]
          omega
        · rintro ⟨_, climb, nodup, unvisited, all⟩
          obtain ⟨_, rest, _, rfl, above, again⟩ := round climb unvisited all
          cases next.symm.trans again
          obtain ⟨_, nodup, unvisited⟩ := nodup_unvisited_cons.mp ⟨nodup, unvisited⟩
          refine ⟨rest, above, nodup, unvisited, ?_⟩
          simp only [length_cons] at all
          omega

/-- The matched namespace's depth bounds the chain, and a longer walk is refused for its
    depth. -/
def KeepsDepth (rules : RuleRegistry) (attrs : FlatAttrs) (config : ResolverConfig)
    (depth : Nat) : Prop :=
  ∀ result, (∀ fuel, config.maxDepth < fuel → resolveChain fuel rules attrs config = some result) →
    (∀ chain, result = .ok chain → chain.length ≤ depth) ∧
    (LongerThan rules config.canonicalizationVersion attrs depth →
      ∃ limit, result = .error (.depthLimitExceeded limit))

theorem Climb.normalized_iff (returned : normalizeFlat attrs = .ok normalized) :
    Climb rules version normalized lids ↔ Climb rules version attrs lids := by
  have lid := lidFromFlatAttrs_normalized returned version
  have rule := matchRule_normalized returned rules
  constructor
  · intro climb
    cases climb with
    | here => exact .here
    | up identifies _ rest =>
      exact .up ((lid _).mp identifies) (by rwa [ParentOf, ← rule]) rest
  · intro climb
    cases climb with
    | here => exact .here
    | up identifies _ rest =>
      exact .up ((lid _).mpr identifies) (by rwa [ParentOf, rule]) rest

theorem resolveChain_eq_depth
    (matched : rules.matchRule attrs = some m) (enough : config.maxDepth < fuel) :
    resolveChain fuel rules attrs config = some (.error (.depthLimitExceeded limit)) ↔
      limit = config.maxDepth ∧
        LongerThan rules config.canonicalizationVersion attrs config.maxDepth := by
  obtain ⟨-, -, matching, -⟩ := RuleRegistry.matchRule_eq_some matched
  cases normalize : normalizeFlat attrs with
  | error => simp [RoutingRule.matches, normalizePattern, normalize, mapErr] at matching
  | ok =>
    simp only [resolveChain, normalize]
    rw [run_resolveStep_eq_depth enough]
    simp only [Climb.normalized_iff normalize, not_mem_nil, not_false_eq_true, implies_true,
      true_and, Nat.sub_zero, LongerThan]

/-- The depth of the matched namespace is kept exactly if the resolver's own depth is no
    larger, the walk is not longer than it, or the walk is longer than the resolver's. -/
theorem keeps_depth_iff (rules : RuleRegistry) (attrs : FlatAttrs) (config : ResolverConfig) :
    (∀ m, rules.matchRule attrs = some m → KeepsDepth rules attrs config m.namespace.maxDepth) ↔
    ∀ m, rules.matchRule attrs = some m →
      config.maxDepth ≤ m.namespace.maxDepth ∨
      ¬LongerThan rules config.canonicalizationVersion attrs m.namespace.maxDepth ∨
      LongerThan rules config.canonicalizationVersion attrs config.maxDepth := by
  refine forall_congr' fun m => forall_congr' fun matched => ?_
  obtain ⟨result, returned⟩ := @resolveChain_returns _ _ rules config attrs
  have last := returned _ (Nat.lt_succ_self _)
  constructor
  · intro keeps
    by_contra none
    simp only [not_or, not_not] at none
    obtain ⟨_, longer, short⟩ := none
    obtain ⟨_, rfl⟩ := (keeps result returned).2 longer
    exact short ((resolveChain_eq_depth matched (Nat.lt_succ_self _)).mp last).2
  · intro condition result' again
    obtain rfl : result = result' :=
      Option.some.inj (last.symm.trans (again _ (Nat.lt_succ_self _)))
    -- a walk past the resolver's depth is refused for it
    have refused (longer : LongerThan rules config.canonicalizationVersion attrs config.maxDepth) :
        result = .error (.depthLimitExceeded config.maxDepth) :=
      Option.some.inj (last.symm.trans
        ((resolveChain_eq_depth matched (Nat.lt_succ_self _)).mpr ⟨rfl, longer⟩))
    constructor
    · rintro _ rfl
      obtain ⟨_, walk, nodup, within, -⟩ := resolveChain_eq_ok.mp last
      rcases condition with le | short | longer
      · exact within.trans le
      · by_contra past
        rw [not_le] at past
        exact short ⟨_, walk.climb past, nodup.sublist (take_sublist _ _),
          length_take_of_le past.le⟩
      · cases refused longer
    · intro longer
      rcases condition with le | short | past
      · exact ⟨_, refused (longer.of_le le)⟩
      · exact absurd longer short
      · exact ⟨_, refused past⟩

omit [UnicodeNormalization] [Blake3] in
theorem keeps_depth_tenant :
    letI := asciiNormalization
    letI := truncatingHash
    ∀ m, tenantRules.matchRule dekAttrs = some m →
      KeepsDepth tenantRules dekAttrs tenantConfig m.namespace.maxDepth :=
  letI := asciiNormalization
  letI := truncatingHash
  (keeps_depth_iff tenantRules dekAttrs tenantConfig).mpr fun m matched => by
    have given := (RuleRegistry.matchRule_eq_some matched).1
    simp only [tenantRules, mem_singleton] at given
    rw [given]
    exact Or.inl (by decide)

/-- The tenant's rules in a namespace that allows a single map. -/
def shallowRules : RuleRegistry :=
  ⟨tenantRules.namespaces.map fun ns => { ns with maxDepth := 1 }⟩

omit [UnicodeNormalization] [Blake3] in
/-- A chain of two maps is returned where the namespace allows one. -/
theorem shallow_namespace_exceeded :
    letI := asciiNormalization
    letI := truncatingHash
    (shallowRules.matchRule dekAttrs).map (·.namespace.maxDepth) = some 1 ∧
      resolveChain 5 shallowRules dekAttrs tenantConfig = some (.ok [dekLid, tenantLid]) := by
  decide

end KeyRack
