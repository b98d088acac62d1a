import KeyRack.Core.Registration
import KeyRack.Properties.Resolution

/-!
# The rule that is matched

Registered rules are normalized, and normalizing them again changes nothing, so that a rule
matches exactly the attributes whose normalization matches its stored pattern. Of the rules
that match, the first one of the highest rank is taken.
-/
namespace KeyRack

open Fallible SortedMap List

section
variable [UnicodeNormalization]

/-! ### Registered rules -/

variable {map : FlatAttrs}

theorem normalizePattern_idem (returned : normalizePattern map = .ok normalized) :
    normalizePattern normalized = .ok normalized := by
  rw [normalizePattern, mapErr_eq_ok] at returned ⊢
  exact normalizeFlat_idem returned

/-- What becomes of a parent. -/
def ParentRef.NormalizesTo : ParentRef → ParentRef → Prop
  | .pattern parent, normalized =>
    ∃ result, normalizePattern parent = .ok result ∧ .pattern result = normalized
  | parent, normalized => parent = normalized

theorem ParentRef.NormalizesTo.idem {parent result : ParentRef}
    (returned : parent.NormalizesTo result) : result.NormalizesTo result := by
  cases parent with
  | root | attachment =>
    cases returned
    rfl
  | pattern =>
    obtain ⟨map, normalize, rfl⟩ := returned
    exact ⟨map, normalizePattern_idem normalize, rfl⟩

variable {rule : RoutingRule}

theorem normalized_eq_ok :
    rule.normalized = .ok out ↔ ∃ matchPattern,
      normalizePattern rule.matchPattern = .ok matchPattern ∧ ∃ u : Unit,
      checkVariables ((matchPattern.entries.map (·.2)).filter isVariable) [] = .ok u ∧
      ∃ parent, rule.parent.NormalizesTo parent ∧ { rule with matchPattern, parent } = out := by
  obtain ⟨_, parent, _, _⟩ := rule
  cases parent with
  | root | attachment | pattern =>
    simp [RoutingRule.normalized, map_eq_pure_bind, bind_eq_ok, pure_eq_ok, ParentRef.NormalizesTo,
      -bind_pure_comp]

theorem normalized_idem (returned : rule.normalized = .ok out) : out.normalized = .ok out := by
  obtain ⟨pattern, matching, _, bound, parent, parents, rfl⟩ := normalized_eq_ok.mp returned
  exact normalized_eq_ok.mpr
    ⟨pattern, normalizePattern_idem matching, (), bound, parent, parents.idem, rfl⟩

theorem normalized_parent (normal : rule.normalized = .ok rule)
    (written : rule.parent = .pattern parent) : normalizeFlat parent = .ok parent := by
  cases rule
  obtain ⟨_, _, _, _, _, parents, ⟨⟩⟩ := normalized_eq_ok.mp normal
  cases written
  obtain ⟨_, normalize, ⟨⟩⟩ := parents
  exact mapErr_eq_ok.mp normalize

namespace RuleRegistry

variable {rules : RuleRegistry}

def Normalized (rules : RuleRegistry) : Prop :=
  ∀ ns ∈ rules.namespaces, ∀ rule ∈ ns.routingRules, rule.normalized = .ok rule

theorem register_normalized
    (registered : rules.register ns = .ok more) (normal : rules.Normalized) : more.Normalized := by
  simp only [register, eq_ok] at registered
  obtain ⟨_, _, _, _, _, _, _, _, _, mapped, _, _, rfl⟩ := registered
  intro ns' given rule held
  rcases mem_append.mp given with old | new
  · exact normal ns' old rule held
  · cases mem_singleton.mp new
    obtain ⟨_, _, returned⟩ := (mem_mapM mapped).2 rule held
    exact normalized_idem returned

theorem foldlM_register_normalized {namespaces : List Namespace}
    (accepted : namespaces.foldlM register ⟨[]⟩ = .ok rules) : rules.Normalized :=
  foldlM_invariant (fun _ _ _ => register_normalized) accepted nofun

end RuleRegistry

omit [UnicodeNormalization] in
theorem checkVariables_nodup (checked : checkVariables values seen = .ok u) :
    seen.Disjoint values ∧ values.Nodup := by
  induction values generalizing seen with
  | nil => simp
  | cons value rest ih =>
    simp only [checkVariables, eq_ok, not_or] at checked
    obtain ⟨_, ⟨_, fresh⟩, checked⟩ := checked
    obtain ⟨apart, nodup⟩ := ih checked
    rw [disjoint_cons_left] at apart
    rw [disjoint_cons_right, nodup_cons]
    exact ⟨⟨fresh, apart.2⟩, apart.1, nodup⟩

/-! ### Matching -/

variable {normalized : FlatAttrs}

/-- A variable is bound to the value at its key. -/
theorem extractBindings_get? (normal : rule.normalized = .ok rule)
    (returned : normalizeFlat attrs = .ok normalized)
    (matched : rule.matchesNormalized normalized = true)
    (member : (key, name) ∈ rule.matchPattern.entries) (isVar : isVariable name = true) :
    (rule.extractBindings attrs).get? name = normalized.get? key := by
  have found := all_eq_true.mp matched (key, name) member
  dsimp only at found
  split at found
  next value stored =>
    simp only [RoutingRule.extractBindings, normal, normalizePattern, returned, mapErr, matched,
      if_true, get?_ofList, stored]
    refine lookup_of_mem ?_ (mem_reverse.mpr (mem_filterMap.mpr ⟨(key, name), ?_, ?_⟩))
    · -- no two keys of a valid pattern have the same variable
      obtain ⟨_, _, _, checked, _, _, same⟩ := normalized_eq_ok.mp normal
      have stored := congrArg RoutingRule.matchPattern same
      dsimp only at stored
      rw [stored, filter_map] at checked
      have distinct := pairwise_map.mp (checkVariables_nodup checked).2
      refine pairwise_reverse.mpr (distinct.filterMap _ fun a b apart => ?_)
      simp only [Option.map_eq_some_iff]
      rintro _ ⟨_, _, rfl⟩ _ ⟨_, _, rfl⟩
      exact apart.symm
    · exact mem_filter.mpr ⟨member, isVar⟩
    · simp [stored]
  next => cases found

/-! ### Ranks -/

/-- Rules are compared by the number of values that they name, then by that of their
    variables, then by their priorities. -/
def RoutingRule.rank (rule : RoutingRule) : Nat ×ₗ Nat ×ₗ Int :=
  toLex (rule.specificity.concreteCount, toLex (rule.specificity.variableCount, rule.priority))

namespace RuleRegistry

/-- All rules, in the order of their registration. -/
def registered (rules : RuleRegistry) : List (RoutingRule × Namespace) :=
  rules.namespaces.flatMap fun ns => ns.routingRules.map fun rule => (rule, ns)

variable {rules : RuleRegistry}

omit [UnicodeNormalization] in
theorem mem_registered (member : c ∈ rules.registered) :
    c.2 ∈ rules.namespaces ∧ c.1 ∈ c.2.routingRules := by
  simp only [registered, mem_flatMap, mem_map] at member
  obtain ⟨_, given, _, held, rfl⟩ := member
  exact ⟨given, held⟩

theorem matchRule_eq (rules : RuleRegistry) (attrs : FlatAttrs) :
    rules.matchRule attrs =
      ((rules.registered.filter (·.1.matches attrs)).argmax (·.1.rank)).map fun c =>
        ⟨c.1, c.2, c.1.extractBindings attrs⟩ := by
  let ranked (c : RoutingRule × Namespace) := (c.1.specificity, c.1.priority, c)
  have folded : rules.registered.foldl (fun best c =>
      if c.1.matches attrs && isBetter c.1.specificity c.1.priority best then some (ranked c)
      else best) none = ((rules.registered.filter (·.1.matches attrs)).argmax (·.1.rank)).map
        ranked := by
    rw [argmax, foldl_filter]
    change foldl _ (Option.map ranked none) _ = _
    refine foldl_hom (Option.map ranked) fun best c => ?_
    cases best with
    | none => cases c.1.matches attrs <;> rfl
    | some best =>
      have better : isBetter c.1.specificity c.1.priority (some (ranked best)) = true ↔
          best.1.rank < c.1.rank := by
        simp [isBetter, ranked, RoutingRule.rank, Prod.Lex.toLex_lt_toLex]
      cases c.1.matches attrs with
      | false => rfl
      | true => by_cases above : best.1.rank < c.1.rank <;> simp [argAux, better, above]
  change (rules.registered.foldl _ none).map _ = _
  rw [folded, Option.map_map]
  rfl

/-- The matched rule is one of the registry's, and it matches. -/
theorem matchRule_eq_some (matched : rules.matchRule attrs = some m) :
    m.namespace ∈ rules.namespaces ∧ m.rule ∈ m.namespace.routingRules ∧
      m.rule.matches attrs = true ∧ m.bindings = m.rule.extractBindings attrs := by
  rw [matchRule_eq, Option.map_eq_some_iff] at matched
  obtain ⟨c, best, rfl⟩ := matched
  obtain ⟨member, isMatch⟩ := mem_filter.mp (argmax_mem best)
  obtain ⟨given, held⟩ := mem_registered member
  exact ⟨given, held, isMatch, rfl⟩

end RuleRegistry

/-- **Matched rules**: whatever namespaces were registered, no rule is returned exactly if
    none matches the normalized attributes. Otherwise it is the first one, in the order of
    registration, of those of the highest rank that match, and its variables are bound to
    the normalized values at their keys. Attributes that normalize alike are matched alike. -/
theorem matched_rule_is_first_best (namespaces : List Namespace) (rules : RuleRegistry)
    (accepted : namespaces.foldlM RuleRegistry.register ⟨[]⟩ = .ok rules) (attrs : FlatAttrs) :
    (∀ e, normalizeFlat attrs = .error e → rules.matchRule attrs = none) ∧
    (∀ normalized, normalizeFlat attrs = .ok normalized →
      let fitting := rules.registered.filter (·.1.matchesNormalized normalized)
      (rules.matchRule attrs = none ↔ fitting = []) ∧
      ∀ m, rules.matchRule attrs = some m → (m.rule, m.namespace) ∈ fitting ∧
        (∀ c ∈ fitting, c.1.rank ≤ m.rule.rank ∧
          (c.1.rank = m.rule.rank → fitting.idxOf (m.rule, m.namespace) ≤ fitting.idxOf c)) ∧
        ∀ key name, (key, name) ∈ m.rule.matchPattern.entries → isVariable name = true →
          m.bindings.get? name = normalized.get? key) ∧
    ∀ other, normalizeFlat other = normalizeFlat attrs →
      rules.matchRule other = rules.matchRule attrs := by
  have normal (c : RoutingRule × Namespace) (member : c ∈ rules.registered) :
      c.1.normalized = .ok c.1 := by
    obtain ⟨given, held⟩ := RuleRegistry.mem_registered member
    exact RuleRegistry.foldlM_register_normalized accepted c.2 given c.1 held
  refine ⟨fun e failed => ?_, fun normalized returned => ?_,
    fun other same => matchRule_congr same rules⟩
  · rw [RuleRegistry.matchRule_eq, filter_eq_nil_iff.mpr]
    · rfl
    · intro c member
      simp [RoutingRule.matches, normal c member, normalizePattern, failed, mapErr]
  · have fitting : rules.registered.filter (·.1.matches attrs) =
        rules.registered.filter (·.1.matchesNormalized normalized) :=
      filter_congr fun c member => by
        simp only [RoutingRule.matches, normal c member, normalizePattern, returned, mapErr]
    rw [RuleRegistry.matchRule_eq, fitting, Option.map_eq_none_iff, argmax_eq_none]
    refine ⟨Iff.rfl, fun m matched => ?_⟩
    obtain ⟨c, best, rfl⟩ := Option.map_eq_some_iff.mp matched
    obtain ⟨member, highest, first⟩ := argmax_eq_some_iff.mp best
    obtain ⟨known, isMatch⟩ := mem_filter.mp member
    refine ⟨member, fun d other => ⟨highest d other, fun same => ?_⟩,
      fun key name => extractBindings_get? (normal c known) returned isMatch⟩
    have earliest := first d other same.ge
    rwa [lawful_beq_subsingleton instBEqOfDecidableEq instBEqProd] at earliest

end

/-- Registries are compared by their namespaces. -/
theorem eq_ok_of_namespaces {result : Except KeyRackError RuleRegistry}
    (same : result.toOption.map (·.namespaces) = some rules.namespaces) : result = .ok rules := by
  cases result with
  | error => cases same
  | ok =>
    exact congrArg (fun namespaces => Except.ok (RuleRegistry.mk namespaces)) (Option.some.inj same)

attribute [local instance] asciiNormalization in
/-- The data key's own rule is found, and its tenant is bound. -/
theorem matched_rule_is_first_best_dek : ∃ m, tenantRules.matchRule dekAttrs = some m ∧
    m.rule.matchPattern.entries = [("kind", "dek"), ("t", "$T")] ∧
    m.bindings.get? "$T" = some "a" := by
  have accepted : tenantRules.namespaces.foldlM RuleRegistry.register ⟨[]⟩ = .ok tenantRules :=
    eq_ok_of_namespaces (by decide +kernel)
  have evaluated : (tenantRules.matchRule dekAttrs).map (·.rule.matchPattern.entries) =
      some [("kind", "dek"), ("t", "$T")] := by decide +kernel
  obtain ⟨m, matched, entries⟩ := Option.map_eq_some_iff.mp evaluated
  obtain ⟨-, -, bound⟩ := ((matched_rule_is_first_best _ _ accepted dekAttrs).2.1 dekAttrs
    (by decide +kernel)).2 m matched
  exact ⟨m, matched, entries, bound "t" "$T" (by simp [entries]) (by decide)⟩

end KeyRack
