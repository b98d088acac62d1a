import KeyRack.Service.Calls
import KeyRack.Service.Migration

/-!
# Scope ownership of backends

A backend that is a stored HSM connection may belong to a scope; an operation on a
key is checked against the connection its version is bound to. Which provider then
serves the operation is decided apart from that, by the registry.
-/
namespace KeyRack

open Fallible

/-- Resolves the crypto provider that backs a key version. The default is one of the
    registered providers. -/
structure ProviderRegistry where
  resolve : ProviderRef → Except KeyRackError ProviderEntry
  defaultRef : ProviderRef
  defaultEntry : ProviderEntry
  default_resolves : resolve defaultRef = .ok defaultEntry

namespace ProviderRegistry

/-- The precedence version, record, default. A missing version fails before lookup. -/
def resolveForVersion (registry : ProviderRegistry) (record : KeyRecord) (versionNumber : Nat) :
    Except KeyRackError ProviderEntry := do
  let version ← okOr (record.getVersion versionNumber) (.keyNotFound record.lid)
  match version.providerRef.or record.providerRef with
  | some name => registry.resolve name
  | none => return registry.defaultEntry

def contains (registry : ProviderRegistry) (name : ProviderRef) : Bool :=
  (registry.resolve name).isOk

end ProviderRegistry

namespace Service

variable {Own : Type} {OwnReply : Own → Type}

/-- `msg.contains(needle)`. -/
def containsText (text needle : String) : Bool := decide (needle.toList <:+: text.toList)

def emitScopeAudit (providerName : ProviderRef) (principalScope : Option String)
    (principalId : String) (action : AuditAction) (result : AuditResult)
    (connectionScopeOwner : String) : Handler OwnReply DomainError Unit :=
  emitEvent {
    eventType := .scopeOwnerCheck
    action
    principal := ⟨principalId, "authenticated"⟩
    resource := ⟨providerName.name, "HsmConnection"⟩
    result
    metadata := [("scope", .text (principalScope.getD "")),
      ("connection_scope_owner", .text connectionScopeOwner)] }

/-- The refusal of a principal whose scope is not the required one. -/
def scopeRefusal (providerName : ProviderRef) (requiredScope : String) :
    Option String → Option String
  | some scope =>
    if scope = requiredScope then none
    else some ("scope mismatch: principal scope '" ++ scope ++
      "' does not match connection scope_owner '" ++ requiredScope ++ "'")
  | none => some ("scope_owner '" ++ requiredScope ++ "' is set on connection '" ++
      providerName.name ++ "' but the principal has no scope claim")

/-- Enforce the scope owner of a resolved backend. -/
def checkScopeOwner (providerName : ProviderRef) (principalScope : Option String)
    (principalId : String) (action : AuditAction) : Handler OwnReply DomainError Unit := do
  let found ← Handler.call (.getHsmConnection providerName.name)
  match found with
  | .error message =>
    -- taken for a static or legacy provider, which no scope restricts
    if containsText message "not found" then return ()
    else do
      emitScopeAudit providerName principalScope principalId action .error ""
      throw (.failedPrecondition ("scope_owner check failed: storage error for connection '" ++
        providerName.name ++ "'"))
  | .ok connection =>
    match connection.scopeOwner with
    | none => return ()
    | some requiredScope =>
      match scopeRefusal providerName requiredScope principalScope with
      | none => emitScopeAudit providerName principalScope principalId action .success requiredScope
      | some message => do
        emitScopeAudit providerName principalScope principalId action .denied requiredScope
        throw (.permissionDenied message)

/-- The binding that the check looks at: that of the version, or of the primary one. -/
def checkedRef (record : KeyRecord) : Option Nat → Option ProviderRef
  | some versionNumber =>
    ((record.keyVersions.find? fun version => version.versionNumber == versionNumber).bind
      (·.providerRef)).or record.providerRef
  | none => (record.primaryVersion.bind (·.providerRef)).or record.providerRef

/-- Enforce the scope owner for an operation on an existing key. -/
def enforceScopeForKeyOp (record : KeyRecord) (versionNumber : Option Nat)
    (principalScope : Option String) (principalId : String) (action : AuditAction) :
    Handler OwnReply DomainError Unit :=
  match checkedRef record versionNumber with
  | none => return ()
  | some name => checkScopeOwner name principalScope principalId action

end Service
end KeyRack
