import KeyRack.Core.Error

/-!
# Namespace rule engine

Routing rules match flat attribute maps. A pattern value that starts with `$` is
a variable: it matches any value and can be interpolated into the parent's
attributes. Every use of a rule normalizes it first, so a registry may hold
rules that were never validated.
-/
namespace KeyRack

open Fallible

/-- Where the parent key comes from. -/
inductive ParentRef where
  | root
  | attachment
  | pattern (parent : FlatAttrs)
  deriving DecidableEq

structure RoutingRule where
  matchPattern : FlatAttrs
  parent : ParentRef
  priority : Int
  keySpec : Option KeySpec
  deriving DecidableEq

structure Namespace where
  name : String
  attachment : Option FlatAttrs
  routingRules : List RoutingRule
  maxDepth : Nat
  deriving DecidableEq

structure RuleRegistry where
  namespaces : List Namespace

structure RuleMatch where
  rule : RoutingRule
  «namespace» : Namespace
  bindings : FlatAttrs

/-- Specificity tuple for rule ranking. -/
structure Specificity where
  concreteCount : Nat
  variableCount : Nat

def isVariable (value : String) : Bool := value.toList.head? == some '$'

namespace RoutingRule

def specificity (rule : RoutingRule) : Specificity where
  concreteCount := rule.matchPattern.entries.countP fun entry => !isVariable entry.2
  variableCount := rule.matchPattern.entries.countP fun entry => isVariable entry.2

/-- Check a normalized pattern against normalized attributes. -/
def matchesNormalized (rule : RoutingRule) (attrs : FlatAttrs) : Bool :=
  rule.matchPattern.entries.all fun (key, pattern) =>
    match attrs.get? key with
    | some value => isVariable pattern || pattern == value
    | none => false

/-- Whether this rule's parent is `_attachment_`. -/
def isAttachmentBoundary (rule : RoutingRule) : Bool := rule.parent == .attachment

def isRoot (rule : RoutingRule) : Bool := rule.parent == .root

end RoutingRule

variable [UnicodeNormalization]

def normalizePattern (map : FlatAttrs) : Except KeyRackError FlatAttrs :=
  mapErr (normalizeFlat map) .invalidIdentity

/-- Refuse a bare `$` and a variable that is already bound. -/
def checkVariables : List String → List String → Except KeyRackError Unit
  | [], _ => .ok ()
  | value :: rest, seen => do
    refuseIf (value.utf8ByteSize = 1 ∨ value ∈ seen)
      (.other ("empty or duplicate normalized variable binding: " ++ value))
    checkVariables rest (value :: seen)

namespace RoutingRule

/-- Normalize a rule before validating or using its patterns. -/
def normalized (rule : RoutingRule) : Except KeyRackError RoutingRule := do
  let matchPattern ← normalizePattern rule.matchPattern
  -- variables are told apart by their normalized names
  checkVariables ((matchPattern.entries.map (·.2)).filter isVariable) []
  let parent ← match rule.parent with
    | .pattern parent => ParentRef.pattern <$> normalizePattern parent
    | parent => .ok parent
  return { rule with matchPattern, parent }

/-- Check if this rule matches the given attributes after NFC normalization. -/
def «matches» (rule : RoutingRule) (attrs : FlatAttrs) : Bool :=
  match rule.normalized, normalizePattern attrs with
  | .ok rule, .ok attrs => rule.matchesNormalized attrs
  | _, _ => false

/-- Extract normalized variable bindings from a valid match. -/
def extractBindings (rule : RoutingRule) (attrs : FlatAttrs) : FlatAttrs :=
  match rule.normalized, normalizePattern attrs with
  | .ok rule, .ok attrs =>
    if rule.matchesNormalized attrs then
      -- a match has a value for every key of the pattern, so nothing is skipped
      .ofList ((rule.matchPattern.entries.filter fun entry => isVariable entry.2).filterMap
        fun (key, pattern) => (attrs.get? key).map fun value => (pattern, value))
    else .empty
  | _, _ => .empty

/-- Interpolate the normalized parent pattern with normalized bindings. A
    missing variable is never a literal value. -/
def resolveParent (rule : RoutingRule) (bindings : FlatAttrs) : Option FlatAttrs := do
  let rule ← rule.normalized.toOption
  let bindings ← (normalizePattern bindings).toOption
  match rule.parent with
  | .root | .attachment => none
  | .pattern parent =>
    let resolved ← parent.entries.mapM fun (key, value) =>
      if isVariable value then (bindings.get? value).map fun bound => (key, bound)
      else some (key, value)
    return .ofList resolved

end RoutingRule

/-- `(specificity, priority)` of a candidate is strictly above the best so far. -/
def isBetter (spec : Specificity) (priority : Int) :
    Option (Specificity × Int × RoutingRule × Namespace) → Bool
  | none => true
  | some (best, bestPriority, _, _) =>
    best.concreteCount < spec.concreteCount ||
      best.concreteCount == spec.concreteCount &&
        (best.variableCount < spec.variableCount ||
          best.variableCount == spec.variableCount && bestPriority < priority)

/-- Find the best-matching rule for the given attributes. -/
def RuleRegistry.matchRule (rules : RuleRegistry) (attrs : FlatAttrs) : Option RuleMatch :=
  let candidates := rules.namespaces.flatMap fun ns => ns.routingRules.map fun rule => (rule, ns)
  -- ranked by the pattern as written; of equals the first one stays
  let best := candidates.foldl (fun best (rule, ns) =>
    if rule.matches attrs && isBetter rule.specificity rule.priority best then
      some (rule.specificity, rule.priority, rule, ns)
    else best) none
  best.map fun (_, _, rule, ns) => ⟨rule, ns, rule.extractBindings attrs⟩

end KeyRack
