import KeyRack.Core.Rule
import KeyRack.Lib.Loop

/-!
# Resolver

Walks the rule engine from an attribute map towards a root and collects the
identifiers on the way, guarded by a set of visited identifiers and a maximum
depth.
-/
namespace KeyRack

open Fallible Loop

structure ResolverConfig where
  maxDepth : Nat
  canonicalizationVersion : CanonicalizationVersion

/-- The variables that live across iterations of the resolution loop. -/
structure ResolverState where
  chain : List Lid
  visited : List Lid
  currentAttrs : FlatAttrs
  depth : Nat

variable [UnicodeNormalization] [Blake3]

/-- Compute an identifier from flat string attributes. -/
def lidFromFlatAttrs (attrs : FlatAttrs) (version : CanonicalizationVersion) :
    Except KeyRackError Lid := do
  let attrSet := attrs.entries.foldl (fun set (key, value) => set.insertString key value) .new
  let form ← mapErr (canonicalize version attrSet) .invalidIdentity
  return Lid.derive version form

/-- One iteration of the resolution loop. -/
def resolveStep (rules : RuleRegistry) (config : ResolverConfig) (s : ResolverState) :
    Except KeyRackError (Control (List Lid) ResolverState) := do
  refuseIf (s.depth ≥ config.maxDepth) (.depthLimitExceeded config.maxDepth)
  let lid ← lidFromFlatAttrs s.currentAttrs config.canonicalizationVersion
  -- a repeated identifier is a cycle, also where the attributes differ
  refuseIf (lid ∈ s.visited) (.cycleDetected lid)
  let chain := s.chain ++ [lid]
  let visited := lid :: s.visited
  let depth := s.depth + 1
  let ruleMatch ← okOr (rules.matchRule s.currentAttrs) (.noRuleMatches s.currentAttrs)
  if ruleMatch.rule.isRoot then
    return .done chain
  else if ruleMatch.rule.isAttachmentBoundary then
    -- the walk goes on from the namespace's own attributes
    let attachment ← okOr ruleMatch.namespace.attachment
      (.other ("namespace '" ++ ruleMatch.namespace.name ++
        "' has attachment rule but no attachment context"))
    return .next ⟨chain, visited, attachment, depth⟩
  else
    let parentAttrs ← okOr (ruleMatch.rule.resolveParent ruleMatch.bindings)
      (.other "rule matched but produced no parent")
    return .next ⟨chain, visited, parentAttrs, depth⟩

/-- Resolve an attribute map to a chain of identifiers, with at most `fuel`
    iterations of the loop; `none` while it is still running. -/
def resolveChain (fuel : Nat) (rules : RuleRegistry) (attrs : FlatAttrs)
    (config : ResolverConfig) : Option (Except KeyRackError (List Lid)) :=
  match normalizeFlat attrs with
  | .error e => some (.error (.invalidIdentity e))
  | .ok currentAttrs => run (resolveStep rules config) fuel ⟨[], [], currentAttrs, 0⟩

end KeyRack
