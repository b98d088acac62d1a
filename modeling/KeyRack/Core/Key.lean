import KeyRack.Core.Wrapping

/-!
# Key records

A key record, its versions and the three in-place mutations: the lifecycle
transition, the exportability transition and the export latch. The clock is an
argument. A counter that is already at the `u64` maximum makes a mutation panic,
which is `none`.
-/
namespace KeyRack

inductive KeyState where
  | creating
  | enabled
  | disabled
  | compromised
  | pendingDeletion
  | destroyed
  deriving DecidableEq, Repr

namespace KeyState

def permitsEncrypt : KeyState → Bool
  | .enabled => true
  | _ => false

/-- Disabled keys allow decrypt for data recovery. -/
def permitsDecrypt : KeyState → Bool
  | .enabled | .disabled => true
  | _ => false

def permitsExport : KeyState → Bool
  | .enabled => true
  | _ => false

def validTransitions : KeyState → List KeyState
  | .creating => [.enabled]
  | .enabled => [.disabled, .compromised, .pendingDeletion]
  | .disabled => [.enabled, .compromised, .pendingDeletion]
  | .compromised => [.pendingDeletion]
  | .pendingDeletion => [.disabled, .destroyed]
  | .destroyed => []

def canTransitionTo (state target : KeyState) : Bool := state.validTransitions.contains target

end KeyState

inductive KeyUsage where
  | encryptDecrypt
  | signVerify
  | generateVerifyMac
  deriving DecidableEq, Repr

inductive ProviderClass where
  | software
  | pkcs11
  | kmip
  | inMemory
  | vaultTransit
  deriving DecidableEq, Repr

inductive KeyOrigin where
  | keyRack
  | external
  deriving DecidableEq, Repr

inductive Exportability where
  | nonExportable
  | exportable
  deriving DecidableEq, Repr

/-- Provider-internal address of resident material. -/
structure KeyHandle where
  keyId : String
  keySpec : KeySpec
  deriving DecidableEq, Repr

/-- Structurally validated reference to parent-wrapped material. -/
structure ParentWrappedMaterial where
  providerRef : ProviderRef
  securityDomain : WrappingIdentifier
  parent : VersionedKeyId
  wrappingContextVersion : WrappingContextVersion
  keyFormat : WrappedKeyFormat
  mechanism : WrappingIdentifier
  wrappedMaterialRef : WrappingIdentifier
  -- a bare `ProviderRef` permits any string; the persisted binding does not
  providerValid : validIdentifier providerRef.name = true
  deriving DecidableEq, Repr

/-- Exactly one durable material representation for a key version. -/
inductive KeyMaterial where
  | providerResident (keyHandle : KeyHandle) (providerRef : Option ProviderRef)
  | parentWrapped (material : ParentWrappedMaterial)
  deriving DecidableEq, Repr

def KeyMaterial.wrapped? : KeyMaterial → Option ParentWrappedMaterial
  | .parentWrapped material => some material
  | .providerResident _ _ => none

/-- Per-rotation key version record. -/
structure KeyVersionRecord where
  versionNumber : Nat
  material : KeyMaterial
  createdAt : DateTime
  isPrimary : Bool
  deriving DecidableEq, Repr

/-- The primary key record. -/
structure KeyRecord where
  lid : Lid
  canonicalizationVersion : CanonicalizationVersion
  parentLid : Option Lid
  occVersion : Nat
  currentKeyVersion : Nat
  state : KeyState
  wasCompromised : Bool
  keyUsage : KeyUsage
  keySpec : KeySpec
  origin : KeyOrigin
  providerClass : ProviderClass
  providerRef : Option ProviderRef
  exportability : Exportability
  firstExportedAt : Option DateTime
  ownerPrincipalId : Option String
  identityTags : FlatAttrs
  userTags : FlatAttrs
  createdAt : DateTime
  updatedAt : DateTime
  scheduledDeletionAt : Option DateTime
  description : String
  keyVersions : List KeyVersionRecord
  deriving DecidableEq

namespace KeyRecord

/-- Whether this logical key is, or was previously, marked compromised. The
    live state counts too: records older than the marker carry only that. -/
def hasCompromiseHistory (record : KeyRecord) : Bool :=
  record.wasCompromised || record.state == .compromised

def permitsEncrypt (record : KeyRecord) : Bool :=
  !record.hasCompromiseHistory && record.state.permitsEncrypt

def permitsDecrypt (record : KeyRecord) : Bool :=
  !record.hasCompromiseHistory && record.state.permitsDecrypt

def permitsExport (record : KeyRecord) : Bool :=
  !record.hasCompromiseHistory && record.state.permitsExport

/-- The condition under which `transitionTo` succeeds. -/
def transitionAllowed (record : KeyRecord) (target : KeyState) : Bool :=
  record.state.canTransitionTo target && !(target == .enabled && record.hasCompromiseHistory)

/-- Attempt a state transition. -/
def transitionTo (record : KeyRecord) (target : KeyState) (now : DateTime) :
    Except (KeyState × KeyState) KeyState × KeyRecord :=
  if record.transitionAllowed target then
    (.ok target, { record with
      -- latched: leaving the compromised state does not clear it
      wasCompromised := record.hasCompromiseHistory || target == .compromised
      state := target
      occVersion := wrappingSucc record.occVersion
      updatedAt := now })
  else
    (.error (record.state, target), record)

def getVersion (record : KeyRecord) (versionNumber : Nat) : Option KeyVersionRecord :=
  record.keyVersions.find? fun version => version.versionNumber == versionNumber

/-- The record with a new exportability, its counter and clock moved on. -/
def setExportability (record : KeyRecord) (target : Exportability) (now : DateTime) :
    Except String Exportability × KeyRecord :=
  (.ok target, { record with
    exportability := target, occVersion := wrappingSucc record.occVersion, updatedAt := now })

/-- Attempt an exportability transition. -/
def transitionExportability (record : KeyRecord) (target : Exportability) (now : DateTime) :
    Except String Exportability × KeyRecord :=
  if record.exportability = target then
    (.ok target, record)
  else
    match record.exportability, target with
    | .nonExportable, .exportable => record.setExportability target now
    | .exportable, .nonExportable =>
      if record.firstExportedAt.isSome then
        (.error "cannot revoke exportability: key material has already been exported", record)
      else
        record.setExportability target now
    -- equal values were answered above
    | _, _ => (.error "invalid exportability transition", record)

/-- Set the export latch on the first successful export. -/
def markExported (record : KeyRecord) (now : DateTime) : KeyRecord :=
  match record.firstExportedAt with
  | none => { record with
      firstExportedAt := some now, occVersion := wrappingSucc record.occVersion, updatedAt := now }
  | some _ => record

end KeyRecord
end KeyRack
