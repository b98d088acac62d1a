import KeyRack.Properties.Canonicalization
import KeyRack.Properties.NamespaceDepth

/-!
# Static cycles

Rules without variables name the same parent whatever they match, so that a resolution is, from
its second map on, one of the walks that were followed when the rules were loaded. A map that
comes again is found there, or it is the first one, and then the second one comes again.
-/
namespace KeyRack

open Fallible Loop SortedMap List Option

theorem mapM_self {α : Type} {f : α → Option α} (xs : List α) (same : ∀ x ∈ xs, f x = some x) :
    xs.mapM f = some xs := by
  induction xs with
  | nil => rfl
  | cons x _ ih =>
    rw [mapM_cons, same x (by simp), ih fun y member => same y (by simp [member])]
    rfl

variable [UnicodeNormalization]

/-! ### Rules without variables -/

/-- No pattern of the rule has a variable, and its parent is no attachment. -/
def RoutingRule.Constant (rule : RoutingRule) : Prop :=
  (∀ entry ∈ rule.matchPattern.entries, isVariable entry.2 = false) ∧ rule.parent ≠ .attachment ∧
  ∀ parent, rule.parent = .pattern parent → ∀ entry ∈ parent.entries, isVariable entry.2 = false

def RuleRegistry.Constant (rules : RuleRegistry) : Prop :=
  ∀ ns ∈ rules.namespaces, ∀ rule ∈ ns.routingRules, rule.Constant

variable {map : FlatAttrs} {rules : RuleRegistry}

/-- What is known of a loaded registry. -/
theorem RuleRegistry.fromYaml_eq_ok {namespaces : List Namespace}
    (accepted : fromYaml namespaces = .ok rules) :
    rules.Normalized ∧ rules.detectStaticCycles = .ok () := by
  simp only [fromYaml, eq_ok] at accepted
  obtain ⟨_, loaded, _, checked, rfl⟩ := accepted
  exact ⟨foldlM_register_normalized loaded, checked⟩

variable {attrs parent : FlatAttrs}

section
variable (constant : rules.Constant) (normal : rules.Normalized)
include constant normal

/-- A rule without variables leads to the parent it names. -/
theorem parentOf_constant (named : ParentOf rules attrs parent) :
    ∃ m, rules.matchRule attrs = some m ∧
      m.namespace ∈ rules.namespaces ∧ m.rule ∈ m.namespace.routingRules ∧
      m.rule.parent = .pattern parent ∧ m.rule.resolveParent m.bindings = some parent := by
  obtain ⟨m, matched, named⟩ := named
  obtain ⟨given, held, -, -⟩ := RuleRegistry.matchRule_eq_some matched
  obtain ⟨-, unattached, plain⟩ := constant _ given _ held
  refine ⟨m, matched, given, held, ?_⟩
  rcases named with ⟨attached, -⟩ | ⟨⟨pattern, written⟩, resolved⟩
  · exact absurd attached unattached
  obtain rfl : pattern = parent := by
    unfold RoutingRule.resolveParent at resolved
    rw [normal _ given _ held] at resolved
    simp only [Except.toOption, bind_eq_bind, bind_some, written,
      Option.bind_eq_some_iff, Option.pure_def, Option.some.injEq] at resolved
    obtain ⟨_, -, _, mapped, rfl⟩ := resolved
    rw [mapM_self] at mapped
    · cases mapped
      exact (ofList_entries pattern).symm
    · intro entry held
      rw [plain pattern written entry held]
      rfl
  exact ⟨written, resolved⟩

variable {start : FlatAttrs} {above : List FlatAttrs}

/-- What was followed without finding a cycle repeats nothing. -/
theorem followParents_nodup
    (followed : rules.followParents name start steps visited current = .ok u)
    (path : (current :: above).IsChain (ParentOf rules)) (short : above.length < steps) :
    (current :: above).Nodup ∧ ∀ map ∈ current :: above, map ∉ visited := by
  induction steps generalizing visited current above with
  | zero => cases short
  | succ _ ih =>
    simp only [RuleRegistry.followParents, eq_ok] at followed
    obtain ⟨_, fresh, followed⟩ := followed
    cases above with
    | nil => exact ⟨by simp, by simpa using fresh⟩
    | cons =>
      obtain ⟨named, path⟩ := isChain_cons_cons.mp path
      obtain ⟨m, matched, -, -, written, resolved⟩ := parentOf_constant constant normal named
      rw [matched] at followed
      dsimp only at followed
      rw [written] at followed
      rw [resolved] at followed
      obtain ⟨nodup, unvisited⟩ := ih followed path (Nat.lt_of_succ_lt_succ short)
      refine ⟨nodup_cons.mpr ⟨fun again => ?_, nodup⟩, ?_⟩
      · exact unvisited current again (by simp)
      · intro map member
        rcases mem_cons.mp member with rfl | later
        · exact fresh
        · exact fun old => unvisited map later (by simp [old])

/-- Above a map, no walk of loaded rules without variables repeats a map, nor comes back to
    where it started. -/
theorem walk_nodup (checked : rules.detectStaticCycles = .ok ())
    (path : (attrs :: above).IsChain (ParentOf rules)) (short : above.length < 256) :
    (attrs :: above).Nodup := by
  cases above with
  | nil => simp
  | cons parent =>
    obtain ⟨named, path⟩ := isChain_cons_cons.mp path
    obtain ⟨m, -, given, held, written, -⟩ := parentOf_constant constant normal named
    have followed := (checkAll_eq_ok.mp (checkAll_eq_ok.mp checked _ given)) _ held
    rw [written] at followed
    have distinct {more : List FlatAttrs} (path : (parent :: more).IsChain (ParentOf rules))
        (short : more.length < 256) : (parent :: more).Nodup :=
      (followParents_nodup constant normal followed path short).1
    refine nodup_cons.mpr ⟨fun again => ?_, distinct path (Nat.lt_of_succ_lt short)⟩
    -- back at the start, the walk goes on to the second map, which it has passed
    obtain ⟨before, _, split⟩ := append_of_mem again
    rw [split, ← singleton_append, ← append_assoc] at path
    have round : (before ++ [attrs] ++ [parent]).IsChain (ParentOf rules) :=
      (isChain_append.mp path).1.append (by simp) (by simpa using named)
    have length := congrArg List.length split
    simp only [length_cons, length_append] at length short
    cases before with
    | nil =>
      cases split
      have twice := distinct round (by simp)
      simp at twice
    | cons _ before =>
      cases split
      have all : (before ++ [attrs] ++ [parent]).length < 256 := by
        simp only [length_append, length_cons, length_nil] at length ⊢
        omega
      have twice := distinct round all
      simp at twice

end

/-! ### Identifiers -/

theorem stringEntries_normal (normal : normalizeFlat map = .ok map) :
    NormalEntries (stringEntries map.entries) ∧
      (encodeMap (stringEntries map.entries)).length < 2 ^ 32 := by
  simp only [normalizeFlat, eq_ok] at normal
  obtain ⟨⟨result, _⟩, returned, same⟩ := normal
  obtain rfl : result = map := same
  have typed := normalizeEntries_stringEntries 0 result.entries empty maxIdentityBytes
  rw [returned] at typed
  obtain ⟨normal, bound⟩ := normalize_spec.2 _ _ _ _ _ _ typed (by trivial)
  have small : maxIdentityBytes < 2 ^ 32 := by decide
  change _ ≤ 0 + maxIdentityBytes at bound
  exact ⟨normal, by omega⟩

theorem reached_of_mem (path : (start :: above).IsChain (ParentOf rules))
    (member : map ∈ start :: above) : Relation.ReflTransGen (ParentOf rules) start map := by
  induction above generalizing start with
  | nil =>
    cases mem_singleton.mp member
    exact .refl
  | cons _ _ ih =>
    obtain ⟨named, path⟩ := isChain_cons_cons.mp path
    rcases mem_cons.mp member with rfl | later
    · exact .refl
    · exact .head named (ih path later)

theorem normalized_of_mem (constant : rules.Constant) (normal : rules.Normalized)
    (first : normalizeFlat start = .ok start) (path : (start :: above).IsChain (ParentOf rules))
    (member : map ∈ start :: above) : normalizeFlat map = .ok map := by
  induction above generalizing start with
  | nil =>
    cases mem_singleton.mp member
    exact first
  | cons _ _ ih =>
    obtain ⟨named, path⟩ := isChain_cons_cons.mp path
    rcases mem_cons.mp member with rfl | later
    · exact first
    · obtain ⟨m, -, given, held, written, -⟩ := parentOf_constant constant normal named
      exact ih (normalized_parent (normal _ given _ held) written) path later

variable [Blake3] {version : CanonicalizationVersion}

/-- The byte strings that are hashed along the walk from a map. -/
def hashInputs (rules : RuleRegistry) (version : CanonicalizationVersion) (attrs : FlatAttrs) :
    Set Bytes :=
  {bytes | ∃ map, Relation.ReflTransGen (ParentOf rules) attrs map ∧
    bytes = version.asLeBytes ++ encodeMap (stringEntries map.entries)}

/-- Along the walk from a map, hashing has no collision. -/
def CollisionFree (rules : RuleRegistry) (version : CanonicalizationVersion) (attrs : FlatAttrs) :
    Prop :=
  ∀ x ∈ hashInputs rules version attrs, ∀ y ∈ hashInputs rules version attrs,
    Blake3.hash x = Blake3.hash y → x = y

/-- Different normalized maps on the walk have different identifiers. -/
theorem lidFromFlatAttrs_inj (collisionFree : CollisionFree rules version attrs)
    (reachedA : Relation.ReflTransGen (ParentOf rules) attrs a)
    (reachedB : Relation.ReflTransGen (ParentOf rules) attrs b)
    (normalA : normalizeFlat a = .ok a) (normalB : normalizeFlat b = .ok b)
    (lidA : lidFromFlatAttrs a version = .ok lid) (lidB : lidFromFlatAttrs b version = .ok lid) :
    a = b := by
  obtain ⟨_, returnedA, rfl⟩ := lidFromFlatAttrs_eq_ok.mp lidA
  obtain ⟨_, returnedB, same⟩ := lidFromFlatAttrs_eq_ok.mp lidB
  cases normalA.symm.trans returnedA
  cases normalB.symm.trans returnedB
  have inputs := collisionFree _ ⟨a, reachedA, rfl⟩ _ ⟨b, reachedB, rfl⟩ (congrArg Lid.bytes same)
  obtain ⟨formA, shortA⟩ := stringEntries_normal normalA
  obtain ⟨formB, shortB⟩ := stringEntries_normal normalB
  have entries := encode_split.2 _ _ formA formB shortA shortB (append_cancel_left inputs)
  apply SortedMap.ext
  refine map_injective_iff.mpr ?_ entries
  rintro ⟨_, _⟩ ⟨_, _⟩ same
  cases same
  rfl

/-! ### Resolutions -/

/-- The maps that the loop has passed, from the first to its current one. -/
def Traced (rules : RuleRegistry) (version : CanonicalizationVersion) (start : FlatAttrs)
    (s : ResolverState) : Prop :=
  ∃ above, (start :: above).IsChain (ParentOf rules) ∧ above.length = s.depth ∧
    (start :: above).getLast? = some s.currentAttrs ∧
    ∀ lid ∈ s.visited, ∃ map ∈ (start :: above).dropLast, lidFromFlatAttrs map version = .ok lid

theorem Traced.next (traced : Traced rules config.canonicalizationVersion start s)
    (round : resolveStep rules config s = .ok (.next s')) :
    Traced rules config.canonicalizationVersion start s' := by
  obtain ⟨above, path, length, last, passed⟩ := traced
  obtain ⟨-, named, lid, identifies, -, same⟩ := resolveStep_eq_next.mp round
  have visited : s'.visited = lid :: s.visited := congrArg ResolverState.visited same
  have depth : s'.depth = s.depth + 1 := congrArg ResolverState.depth same
  refine ⟨above ++ [s'.currentAttrs], ?_, by simp [length, depth], ?_, ?_⟩
  · refine path.append (by simp) ?_
    rw [last]
    simpa using named
  · rw [← cons_append, List.getLast?_concat]
  · rw [← cons_append, dropLast_concat, visited]
    intro l member
    rcases mem_cons.mp member with rfl | old
    · exact ⟨_, mem_of_getLast? last, identifies⟩
    · obtain ⟨map, held, identified⟩ := passed l old
      exact ⟨map, (dropLast_sublist _).subset held, identified⟩

/-- Loaded rules without variables and attachments never lead a resolution of at most 256 maps
    into a cycle. -/
theorem constant_rules_acyclic {namespaces : List Namespace} {rules : RuleRegistry}
    (attrs : FlatAttrs) {config : ResolverConfig}
    (accepted : RuleRegistry.fromYaml namespaces = .ok rules) (constant : rules.Constant)
    (shallow : config.maxDepth ≤ 256)
    (collisionFree : ∀ start, normalizeFlat attrs = .ok start →
      CollisionFree rules config.canonicalizationVersion start) (fuel : Nat) (lid : Lid) :
    resolveChain fuel rules attrs config ≠ some (.error (.cycleDetected lid)) := by
  intro cyclic
  obtain ⟨normal, checked⟩ := RuleRegistry.fromYaml_eq_ok accepted
  unfold resolveChain at cyclic
  split at cyclic
  next => simp at cyclic
  next start normalized =>
    have first := normalizeFlat_idem normalized
    have began : Traced rules config.canonicalizationVersion start ⟨[], [], start, 0⟩ :=
      ⟨[], by simp, rfl, rfl, nofun⟩
    obtain ⟨s, ⟨_, path, _, last, passed⟩, failed⟩ :=
      run_last (fun _ _ traced => traced.next) began cyclic
    rcases resolveStep_error failed with ⟨-, ⟨⟩⟩ | ⟨_, ⟨_, identifies, again, ⟨⟩⟩ | others⟩
    · obtain ⟨map, held, identified⟩ := passed lid again
      have member := (dropLast_sublist _).subset held
      have current := mem_of_getLast? last
      have same : map = s.currentAttrs := lidFromFlatAttrs_inj (collisionFree start normalized)
        (reached_of_mem path member) (reached_of_mem path current)
        (normalized_of_mem constant normal first path member)
        (normalized_of_mem constant normal first path current) identified identifies
      have nodup := walk_nodup constant normal checked path (by omega)
      rw [← dropLast_append_getLast? _ last] at nodup
      exact (nodup_append.mp nodup).2.2 _ (same ▸ held) _ (by simp) rfl
    · simp at others

def kindAttrs (kind : String) : FlatAttrs := .ofList [("kind", kind)]

/-- Data keys hang below a root key. -/
def kindNamespace : Namespace where
  name := "app"
  attachment := none
  maxDepth := 16
  routingRules := [
    { matchPattern := kindAttrs "dek", parent := .pattern (kindAttrs "root"), priority := 0,
      keySpec := none },
    { matchPattern := kindAttrs "root", parent := .root, priority := 0, keySpec := none }]

def kindRules : RuleRegistry := ⟨[kindNamespace]⟩

omit [UnicodeNormalization] [Blake3]

theorem kindRules_loaded : @RuleRegistry.fromYaml asciiNormalization [kindNamespace] =
    .ok kindRules :=
  eq_ok_of_namespaces (by decide +kernel)

theorem kindRules_constant : kindRules.Constant := by
  have dek : ∀ entry ∈ (kindAttrs "dek").entries, isVariable entry.2 = false := by decide +kernel
  have root : ∀ entry ∈ (kindAttrs "root").entries, isVariable entry.2 = false := by decide +kernel
  simp only [RuleRegistry.Constant, kindRules, kindNamespace, forall_mem_singleton,
    forall_mem_cons, RoutingRule.Constant]
  refine ⟨⟨dek, nofun, ?_⟩, root, nofun, nofun⟩
  rintro _ ⟨⟩
  exact root

/-- The walk from a data key is hashed without a collision. -/
theorem kindRules_collisionFree :
    @CollisionFree asciiNormalization truncatingHash kindRules .v2 (kindAttrs "dek") := by
  let := asciiNormalization
  have dek : (kindRules.matchRule (kindAttrs "dek")).map (·.rule.parent) =
    some (.pattern (kindAttrs "root")) := by decide +kernel
  have root : (kindRules.matchRule (kindAttrs "root")).map (·.rule.parent) = some .root := by
    decide +kernel
  have reached {map : FlatAttrs}
      (walk : Relation.ReflTransGen (ParentOf kindRules) (kindAttrs "dek") map) :
      map = kindAttrs "dek" ∨ map = kindAttrs "root" := by
    induction walk with
    | refl => exact Or.inl rfl
    | tail _ named ih =>
      obtain ⟨m, matched, -, -, written, -⟩ := parentOf_constant kindRules_constant
        (RuleRegistry.fromYaml_eq_ok kindRules_loaded).1 named
      rcases ih with rfl | rfl
      · rw [matched, map_some, written] at dek
        cases dek
        exact Or.inr rfl
      · rw [matched, map_some, written] at root
        cases root
  rintro _ ⟨a, walkA, rfl⟩ _ ⟨b, walkB, rfl⟩
  rcases reached walkA with rfl | rfl <;> rcases reached walkB with rfl | rfl <;> decide +kernel

theorem constant_rules_acyclic_kinds :
    @resolveChain asciiNormalization truncatingHash 17 kindRules (kindAttrs "dek") ⟨16, .v2⟩ ≠
      some (.error (.cycleDetected ⟨Vector.replicate 32 0⟩)) :=
  @constant_rules_acyclic asciiNormalization truncatingHash _ _ (kindAttrs "dek") ⟨16, .v2⟩
    kindRules_loaded kindRules_constant (by decide)
    (by rintro _ ⟨⟩; exact kindRules_collisionFree) 17 _

end KeyRack
