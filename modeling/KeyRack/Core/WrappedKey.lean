import KeyRack.Core.Creation

/-!
# Leases of wrapped keys

What a provider returns for an opened or generated wrapped child and for its close.
-/
namespace KeyRack

/-- A provider object, bound to the context it was opened under. -/
structure WrappedKeyLease where
  handle : KeyHandle
  object : WrappingIdentifier
  contextSha256 : Digest
  deriving DecidableEq

/-- A provider's report of what it closed; not closure evidence on its own. -/
structure WrappedKeyClosure where
  fact : A2ClosureFact
  contextSha256 : Digest
  deriving DecidableEq

end KeyRack
