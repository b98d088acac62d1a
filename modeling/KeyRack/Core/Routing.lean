import KeyRack.Core.Error

/-!
# Identity tags and provider routing

Identity tags are the normalized string attributes of a key. A router selects the
provider of a new key by its identity tags: the first rule whose tags are all
there decides, and the default provider backs everything else.
-/
namespace KeyRack

open Fallible

/-- A tag of one attribute; only a string is one. -/
def IdentityTags.tag : String × AttributeValue → Except CanonicalizationError (String × String)
  | (name, .string text) => .ok (name, text)
  | (name, _) => .error (.nonStringIdentity name)

variable [UnicodeNormalization]

/-- Derive identity tags from an attribute set. Values that are not strings are
    refused rather than flattened. -/
def IdentityTags.fromAttributeSet (attrs : AttributeSet) :
    Except CanonicalizationError FlatAttrs := do
  let normalized ← normalizeAttributes attrs
  let entries ← normalized.entries.mapM tag
  return .ofList entries

def IdentityTags.get (tags : FlatAttrs) (key : String) : Option String :=
  tags.get? (normalizeText key)

/-- The action a routing rule takes when matched. -/
inductive RuleAction where
  | route (provider : ProviderRef)
  | delegate (providers : List ProviderRef)
  | delegateAny

/-- Match tags and an action. -/
structure ProviderRoutingRule where
  matchTags : FlatAttrs
  action : RuleAction

inductive RouteOutcome where
  | pinned (provider : ProviderRef)
  | delegated (providers : List ProviderRef)
  | delegatedAny
  | default (provider : ProviderRef)

structure ProviderRouter where
  rules : List ProviderRoutingRule
  default : ProviderRef

namespace ProviderRouter

/-- Rules are evaluated in order; the first match wins. -/
def evaluate (router : ProviderRouter) (tags : FlatAttrs) : RouteOutcome :=
  match router.rules.find? fun rule =>
      rule.matchTags.entries.all fun (key, value) => IdentityTags.get tags key == some value with
  | some rule =>
    match rule.action with
    | .route provider => .pinned provider
    | .delegate providers => .delegated providers
    | .delegateAny => .delegatedAny
  | none => .default router.default

def select (router : ProviderRouter) (tags : FlatAttrs) : ProviderRef :=
  match router.evaluate tags with
  | .pinned provider | .default provider => provider
  -- a delegation without a caller's selection
  | .delegated _ | .delegatedAny => router.default

end ProviderRouter
end KeyRack
