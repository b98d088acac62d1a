import KeyRack.Core.Destruction

/-!
# Audit vocabulary

The actions a principal can ask for, the categories and results of audit events
and the values in their metadata.
-/
namespace KeyRack

/-- Typed actions; the same names are put to the policy decision point. -/
inductive AuditAction where
  | encrypt
  | decrypt
  | generateDataKey
  | generateDataKeyWithoutPlaintext
  | reEncryptFrom
  | reEncryptTo
  | sign
  | verify
  | generateMac
  | verifyMac
  | generateRandom
  | createKey
  | enableKey
  | disableKey
  | scheduleKeyDeletion
  | scheduleKeyDeletionWithDependentDataLoss
  | cancelKeyDeletion
  | reportKeyCompromise
  | rotateKey
  | rewrapKey
  | importKeyMaterial
  | getKey
  | describeKey
  | updateKey
  | listKeys
  | listKeyVersions
  | getKeyVersion
  | enableKeyRotation
  | disableKeyRotation
  | getKeyRotationStatus
  | getKeyRotationHistory
  | getKeyRotationPolicy
  | setKeyRotationPolicy
  | getKeyDependents
  | getKeyAncestors
  | tagResource
  | untagResource
  | listResourceTags
  | createAlias
  | deleteAlias
  | listAliases
  | createHsmConnection
  | getHsmConnection
  | listHsmConnections
  | deleteHsmConnection
  | getHsmConnectionStatus
  | registerNamespace
  | listNamespaces
  | describeNamespace
  | listRotationJobs
  | acknowledgeRotationJob
  | completeRotationJob
  | failRotationJob
  | cascadeDisable
  | rotationJobExpired
  | keyDestroyed
  | keyDestructionRefused
  | keyDestructionRetried
  | keyDestructionDeferred
  | providerDestroyKey
  | accessSecret
  | scopeOwnerCheck
  | getKeyMaterial
  | makeKeyExportable
  | revokeKeyExportability
  deriving DecidableEq, Repr

/-- High-level event categories. -/
inductive EventType where
  | keyCreated
  | keyStateChanged
  | keyRotated
  | keyDeleted
  | keyRead
  | cryptoOperation
  | tagMutation
  | aliasMutation
  | hsmConnectionMutation
  | rotationPolicyChanged
  | rotationJobStateChanged
  | namespaceOperation
  | keyCompromised
  | cascadeDisable
  | authorizationDenied
  | secretAccess
  | scopeOwnerCheck
  deriving DecidableEq, Repr

inductive AuditResult where
  -- neither authorization nor success
  | attempt
  | success
  | denied
  | error
  deriving DecidableEq, Repr

inductive AuditValue where
  | text (value : String)
  | number (value : Nat)
  | flag (value : Bool)
  | operation (value : Uuid)
  -- the text of an error
  | cause (value : KeyRackError)
  | dependents (edges : List DestructionDependent)
  deriving DecidableEq

end KeyRack
