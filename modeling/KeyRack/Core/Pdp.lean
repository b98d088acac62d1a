import KeyRack.Core.Audit

/-!
# The policy decision point

Authorization requests and responses, and what the enforcement point can act on:
a response is reduced to an enforceable one at the point where it crosses the
trust boundary.
-/
namespace KeyRack

open Fallible

def pdpApiVersion : String := "1.0"

/-- Typed attribute value for attribute maps; the entries of a record are those of
    a sorted map. -/
inductive PdpValue where
  | string (value : String)
  | bool (value : Bool)
  | integer (value : Int)
  | stringList (items : List String)
  | record (entries : List (String × PdpValue))
  | recordList (items : List (List (String × PdpValue)))

abbrev PdpAttributes : Type := SortedMap String PdpValue

/-- The authenticated caller. -/
structure Principal where
  id : String
  principalType : String
  attributes : PdpAttributes

def Principal.system : Principal := ⟨"keyrack:system", "System", .empty⟩

structure Resource where
  id : String
  resourceType : String
  attributes : PdpAttributes

structure AuthzRequest where
  pdpApiVersion : String
  requestId : String
  action : AuditAction
  principal : Principal
  resource : Resource
  -- the entries of the request context
  context : PdpAttributes

inductive Decision where
  | permit
  | forbid
  | indeterminate
  deriving DecidableEq, Repr

structure PolicyReason where
  policyId : String
  reasonCode : Option String
  humanMessage : Option String
  deriving DecidableEq, Repr

/-- A condition that the caller must fulfill before it acts on a permit. -/
structure Obligation where
  obligationId : String
  parameters : PdpAttributes

structure AuthzResponse where
  requestId : String
  decision : Decision
  reasons : List PolicyReason
  obligations : List Obligation
  policyVersion : Option String
  -- absent in responses older than the field
  pdpApiVersion : Option String

/-- `Other("PDP protocol violation: …")`, with the values of the message. -/
inductive PdpViolation where
  | noRequestId
  | otherRequest (response request : String)
  | unreadableVersion (version : String)
  deriving DecidableEq, Repr

namespace AuthzResponse

/-- The refusal of a permit that carries obligations, which nothing discharges. -/
def undischargeable (response : AuthzResponse) : AuthzResponse :=
  let ids := ", ".intercalate (response.obligations.map (·.obligationId))
  { response with
    decision := .forbid
    reasons := response.reasons ++ [⟨"keyrack:pep", some "obligation_not_dischargeable",
      some ("permit was conditional on obligations with no handler (" ++ ids ++
        "); denied rather than granted unconditionally")⟩] }

/-- A stated version must be the one this build reads. -/
def checkApiVersion : Option String → Except PdpViolation Unit
  | some version => refuseIf (version ≠ KeyRack.pdpApiVersion) (.unreadableVersion version)
  | none => .ok ()

/-- Reduce a response to what the enforcement point can act on, or refuse it. -/
def intoEnforceable (response : AuthzResponse) (request : AuthzRequest) :
    Except PdpViolation AuthzResponse := do
  refuseIf (response.requestId ≠ request.requestId)
    (if response.requestId.isEmpty then .noRequestId
      else .otherRequest response.requestId request.requestId)
  checkApiVersion response.pdpApiVersion
  return if response.decision = .permit ∧ response.obligations.isEmpty = false then
    response.undischargeable else response

/-- The first text a reason has. -/
def reasonText (reason : PolicyReason) : String :=
  (reason.humanMessage.or reason.reasonCode).getD reason.policyId

def reasonsText (response : AuthzResponse) : String :=
  "; ".intercalate (response.reasons.map reasonText)

end AuthzResponse

/-- An unconditional permit for this very request, in a version that can be read. -/
structure Enforceable (request : AuthzRequest) (response : AuthzResponse) : Prop where
  sameRequest : response.requestId = request.requestId
  readable : response.pdpApiVersion = none ∨ response.pdpApiVersion = some pdpApiVersion
  permits : response.decision = .permit
  unconditional : response.obligations = []

theorem AuthzResponse.checkApiVersion_eq_ok :
    checkApiVersion version = .ok u ↔ version = none ∨ version = some KeyRack.pdpApiVersion := by
  cases version <;> simp [checkApiVersion]

/-- The enforcement point acts on exactly the enforceable responses. -/
theorem AuthzResponse.intoEnforceable_permit :
    (∃ reduced, response.intoEnforceable request = .ok reduced ∧ reduced.decision = .permit) ↔
      Enforceable request response := by
  simp only [intoEnforceable, eq_ok, checkApiVersion_eq_ok, not_not]
  constructor
  · rintro ⟨_, ⟨_, same, _, readable, rfl⟩, permits⟩
    split at permits
    · -- the downgraded response forbids
      simp [undischargeable] at permits
    · rename_i plain
      apply Enforceable.mk same readable permits
      simpa [permits] using plain
  · intro enforceable
    use response
    simp [enforceable.sameRequest, enforceable.readable, enforceable.permits,
      enforceable.unconditional]

end KeyRack
