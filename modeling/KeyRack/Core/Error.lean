import KeyRack.Core.Key

/-!
# Errors of the core operations

Messages that interpolate a value in its debug form keep the value.
-/
namespace KeyRack

inductive KeyRackError where
  | invalidIdentity (e : CanonicalizationError)
  | keyNotFound (lid : Lid)
  | deletionDependencyRefused (reason counts : String)
  | keyDestructionFenced (lid : Lid)
  | wrappingParentDestroyed
  | invalidStateTransition (lid : Lid) (source target : KeyState)
  | optimisticConcurrencyConflict (lid : Lid) (expected actual : Nat)
  | migrationIntentConflict (operation : Uuid)
  | depthLimitExceeded (maxDepth : Nat)
  | cycleDetected (lid : Lid)
  | provider (message : String)
  | providerUnavailable (message : String)
  | storage (message : String)
  -- `reason: format!("descendant {lid}: {e}")`
  | cascadeDisableFailed (descendant : Lid) (cause : KeyRackError)
  | other (message : String)
  -- `Other("no rule matches attributes: …")`
  | noRuleMatches (attrs : FlatAttrs)
  -- `Other("single-flight leader failed for …: …")`
  | leaderFailed (lid : Lid) (cause : KeyRackError)
  -- `Other("single-flight channel closed for …")`
  | channelClosed (lid : Lid)
  -- `Other("provider routing failed: …")`
  | providerRoutingFailed (cause : KeyRackError)
  -- `Other("failed to provision key …")`
  | provisionFailed (lid : Lid)
  -- not an error of the source: an overflowing counter panics
  | panicked
  deriving DecidableEq

end KeyRack
