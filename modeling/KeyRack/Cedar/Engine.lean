import KeyRack.Core.Pdp
import KeyRack.Lib.Encoding

/-!
# The Cedar policy decision point

The engine writes the ids of a request between quotes and lets Cedar parse the text. The
`cedar-policy` crate is a parameter of the model, with what its documentation says of the
entity ids it accepts and of the decisions it makes. A policy is any function of the
request and the entities, so whatever its scope and conditions say is covered.
-/
namespace KeyRack.Cedar

open Fallible Encoding

/-! ### Requests -/

inductive EntityType where
  | principal
  | resource
  deriving DecidableEq

structure EntityUid where
  entityType : EntityType
  id : String
  deriving DecidableEq

def EntityType.name : EntityType → String
  | .principal => "KeyRack::Principal"
  | .resource => "KeyRack::Resource"

/-- The text of an entity, with the id as it is given between the quotes. -/
def EntityType.format (entityType : EntityType) (id : String) : String :=
  entityType.name ++ ("::\"" ++ id ++ "\"")

/-- The name of an action is one plain word, so the action stands for its entity. -/
structure Request where
  principal : EntityUid
  action : AuditAction
  resource : EntityUid
  context : PdpAttributes

inductive EvaluateError where
  | badPrincipal
  | badResource
  | invalidRequest (error : String)
  deriving DecidableEq

/-- The attributes of the entities. An entity that is not there looks like one that has no
    attributes: an access errs and `has` is false. -/
abbrev Entities : Type := EntityUid → PdpAttributes

/-! ### Decisions -/

inductive Effect where
  | permit
  | forbid
  deriving DecidableEq

/-- A policy with its scope and its conditions; nothing where their evaluation errs. -/
structure Policy where
  id : String
  effect : Effect
  condition : Request → Entities → Option Bool

/-- The policies of one effect that the request satisfies; those that err are skipped. -/
def satisfied (policies : List Policy) (effect : Effect) (request : Request)
    (entities : Entities) : List String :=
  (policies.filter fun policy =>
    policy.effect = effect ∧ policy.condition request entities = some true).map (·.id)

/-- `cedar_policy::Decision`. -/
inductive CedarDecision where
  | allow
  | deny
  deriving DecidableEq

def CedarDecision.toDecision : CedarDecision → Decision
  | .allow => .permit
  | .deny => .forbid

/-- What the engine uses of the `cedar-policy` crate. -/
class CedarPolicy where
  -- how an id is printed between quotes
  escaped : String → String
  -- `EntityUid::from_str`, on texts of the two types
  fromStr : String → Option EntityUid
  -- `Authorizer::is_authorized`: the decision and the policies that determined it
  isAuthorized : Request → List Policy → Entities → CedarDecision × List String
  -- a text is accepted only if the entity is printed so
  normal : ∀ text uid, fromStr text = some uid → uid.entityType.format (escaped uid.id) = text
  -- a character is printed as it is or as an escape that begins with a backslash, and a
  -- backslash is always escaped
  escaped_plain : ∀ id, backslash ∉ (escaped id).toList → escaped id = id
  escaped_backslash : ∀ id, backslash ∈ id.toList → escaped id ≠ id
  -- a forbid overrides, and without a permit nothing is allowed
  decides : ∀ request policies entities, (isAuthorized request policies entities).1 = .allow ↔
    satisfied policies .permit request entities ≠ [] ∧
      satisfied policies .forbid request entities = []

/-! ### The engine -/

structure CedarEngine where
  policySet : List Policy
  schema : Option (Request → Except String Unit)

variable [CedarPolicy]

/-- `format!("KeyRack::Principal::\"{}\"", id).parse()`, and the same for a resource. -/
def parseUid (entityType : EntityType) (id : String) : Option EntityUid :=
  CedarPolicy.fromStr (entityType.format id)

/-- The request that is authorized: the context and the entities are empty. -/
def CedarEngine.request (schema : Option (Request → Except String Unit)) (req : AuthzRequest) :
    Except EvaluateError Request := do
  let principal ← okOr (parseUid .principal req.principal.id) .badPrincipal
  let resource ← okOr (parseUid .resource req.resource.id) .badResource
  let request : Request := ⟨principal, req.action, resource, .empty⟩
  match schema with
  | some validate => mapErr (validate request) .invalidRequest
  | none => pure ()
  return request

def CedarEngine.evaluate (engine : CedarEngine) (req : AuthzRequest) :
    Except EvaluateError AuthzResponse := do
  let request ← CedarEngine.request engine.schema req
  let (decided, reasons) := CedarPolicy.isAuthorized request engine.policySet fun _ => .empty
  return {
    pdpApiVersion := some pdpApiVersion
    requestId := req.requestId
    decision := decided.toDecision
    reasons := reasons.map fun id => ⟨id, none, none⟩
    obligations := []
    policyVersion := none }

end KeyRack.Cedar
