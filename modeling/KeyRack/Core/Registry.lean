import KeyRack.Core.Migration

/-!
# Provider resolution

A key version is bound to the provider it names, to the one its record names, or
to the registry's default.
-/
namespace KeyRack

/-- A configured provider: which instance it is, and its class. -/
structure ProviderEntry where
  provider : Nat
  providerClass : ProviderClass
  deriving DecidableEq, Repr

inductive DestroyKeyOutcome where
  | completed
  | alreadyAbsent
  deriving DecidableEq, Repr

/-- The binding of a version, before the registry's default. -/
def KeyRecord.effectiveProviderRef (record : KeyRecord) (versionNumber : Nat) :
    Option ProviderRef :=
  ((record.getVersion versionNumber).bind (·.providerRef)).or record.providerRef

/-- Obtain a durable resident handle, refusing wrapped material. -/
def KeyVersionRecord.residentHandle (version : KeyVersionRecord) :
    Except KeyRackError KeyHandle :=
  match version.material with
  | .providerResident keyHandle _ => .ok keyHandle
  | .parentWrapped _ =>
    .error (.provider "parent-wrapped material is not supported by this operation")

def KeyVersionRecord.isResident (version : KeyVersionRecord) : Bool :=
  version.material.wrapped?.isNone

end KeyRack
