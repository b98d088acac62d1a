import KeyRack.Core.Routing
import KeyRack.Service.Scope

/-!
# The provider of a new key

Routing rules, the caller's selectors and the registry decide together which
provider backs a new key.
-/
namespace KeyRack

open Fallible

def ProviderRouter.hasRules (router : ProviderRouter) : Bool := !router.rules.isEmpty

namespace Service

/-- `selector.filter(|s| !s.is_empty())`. -/
def selection (selector : Option String) : Option String := selector.filter fun text => text ≠ ""

/-- Reconcile `backend_id` with its deprecated alias. -/
def effectiveBackend (backendId hsmConnectionId : Option String) :
    Except DomainError (Option String) :=
  match selection backendId, selection hsmConnectionId with
  | some bid, some hid => do
    refuseIf (bid ≠ hid) (.failedPrecondition ("backend_id '" ++ bid ++
      "' and hsm_connection_id '" ++ hid ++
      "' disagree; use backend_id only (hsm_connection_id is deprecated)"))
    return some bid
  | some bid, none => return some bid
  | none, hid => return hid

variable (router : ProviderRouter) (providers : ProviderRegistry)

/-- The provider that the caller selected. -/
def registered (callerId : String) : Except DomainError ProviderRef := do
  refuseIf (providers.contains ⟨callerId⟩ = false) (.failedPrecondition ("backend_id '" ++
    callerId ++ "' is not a registered provider"))
  return ⟨callerId⟩

/-- The provider by the routing outcome and the caller's selection. -/
def routed (outcome : RouteOutcome) (backend : Option String) : Except DomainError ProviderRef :=
  match outcome, backend with
  | .pinned pinned, some callerId => do
    refuseIf (callerId ≠ pinned.name) (.failedPrecondition ("routing policy pins provider '" ++
      pinned.name ++ "' but backend_id '" ++ callerId ++
      "' was requested (route rules are authoritative)"))
    return pinned
  | .pinned pinned, none => return pinned
  | .delegated allowedSet, some callerId => do
    let name ← registered providers callerId
    refuseIf (name ∉ allowedSet) (.notDelegated callerId allowedSet)
    return name
  | .delegatedAny, some callerId => registered providers callerId
  | .delegated _, none | .delegatedAny, none => return router.default
  | .default defaultProvider, some callerId => do
    let name ← registered providers callerId
    -- default-deny: no delegate rule authorized the selection
    refuseIf (router.hasRules ∧ name ≠ defaultProvider) (.permissionDenied ("backend_id '" ++
      callerId ++ "' is not authorized: no routing rule matched and no delegate permits " ++
      "caller selection"))
    return name
  | .default defaultProvider, none => return defaultProvider

/-- What selected the provider, for the message of a failed assertion. -/
def selectedVia (outcome : RouteOutcome) (backend : Option String) : String :=
  match outcome with
  | .pinned _ => "route pin"
  | .delegated _ | .delegatedAny => "delegate selection"
  | .default _ => if backend.isSome then "backend_id" else "routing policy"

variable [UnicodeNormalization]

def resolveCreateProvider (identityTags : FlatAttrs)
    (requestedProvider hsmConnectionId backendId : Option String) :
    Except DomainError ProviderRef := do
  let backend ← effectiveBackend backendId hsmConnectionId
  let outcome := router.evaluate identityTags
  let resolved ← routed router providers outcome backend
  -- the deprecated `keyrack.provider` is an assertion on the result
  checkAll (selection requestedProvider).toList fun requested =>
    refuseIf (requested ≠ resolved.name) (.failedPrecondition ("requested provider '" ++
      requested ++ "' but " ++ selectedVia outcome backend ++ " selected '" ++ resolved.name ++
      "'"))
  return resolved

end Service
end KeyRack
