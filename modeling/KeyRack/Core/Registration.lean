import KeyRack.Core.Rule

/-!
# Loading rules

Namespaces are normalized and checked one by one, and the parents that the rules name are
followed for a number of steps to find cycles. The YAML reader in front is not modelled: it
yields the list of namespaces.
-/
namespace KeyRack

open Fallible

/-- A map as `{:?}` prints it, where no character needs escaping. -/
def FlatAttrs.print (map : FlatAttrs) : String :=
  "\x7b" ++ ", ".intercalate (map.entries.map fun (key, value) =>
    "\"" ++ key ++ "\": \"" ++ value ++ "\"") ++ "\x7d"

/-- Refuse a match pattern that an earlier rule of the namespace has. -/
def checkPatterns (name : String) : List RoutingRule → List FlatAttrs → Except KeyRackError Unit
  | [], _ => .ok ()
  | rule :: rest, seen => do
    refuseIf (rule.matchPattern ∈ seen)
      (.other (s!"namespace {name}: duplicate rule with pattern " ++ rule.matchPattern.print))
    checkPatterns name rest (rule.matchPattern :: seen)

namespace RuleRegistry

variable [UnicodeNormalization]

/-- Normalize and validate a namespace before storing it. -/
def register (rules : RuleRegistry) (ns : Namespace) : Except KeyRackError RuleRegistry := do
  let name := normalizeText ns.name
  let maxDepth := ns.maxDepth
  refuseIf (name = "") (.other "empty namespace name")
  refuseIf (rules.namespaces.any fun other => other.name == name)
    (.other s!"duplicate namespace: {name}")
  refuseIf (¬(1 ≤ maxDepth ∧ maxDepth ≤ 256))
    (.other s!"namespace {name}: max_depth must be 1–256, got {maxDepth}")
  let attachment ← ns.attachment.mapM normalizePattern
  let routingRules ← ns.routingRules.mapM RoutingRule.normalized
  checkPatterns name routingRules []
  return ⟨rules.namespaces ++ [{ ns with name, attachment, routingRules }]⟩

/-- Follow the parents of a pattern. The source keeps the printed maps, which are equal for
    equal maps only. -/
def followParents (rules : RuleRegistry) (name : String) (start : FlatAttrs) :
    Nat → List FlatAttrs → FlatAttrs → Except KeyRackError Unit
  | 0, _, _ => .ok ()
  | steps + 1, visited, current => do
    refuseIf (current ∈ visited) (.other
      (s!"static cycle detected in namespace {name}: pattern " ++ start.print ++ " loops"))
    match rules.matchRule current with
    | none => .ok ()
    | some m =>
      match m.rule.parent with
      | .pattern _ =>
        match m.rule.resolveParent m.bindings with
        | none => .ok ()
        | some parent => followParents rules name start steps (current :: visited) parent
      | _ => .ok ()

/-- Detect cycles reachable from static parent patterns alone. -/
def detectStaticCycles (rules : RuleRegistry) : Except KeyRackError Unit :=
  checkAll rules.namespaces fun ns => checkAll ns.routingRules fun rule =>
    match rule.parent with
    | .pattern parent =>
      followParents rules ns.name rule.matchPattern 256 [rule.matchPattern] parent
    | _ => .ok ()

def fromYaml (namespaces : List Namespace) : Except KeyRackError RuleRegistry := do
  let rules ← namespaces.foldlM register ⟨[]⟩
  detectStaticCycles rules
  return rules

end RuleRegistry
end KeyRack
