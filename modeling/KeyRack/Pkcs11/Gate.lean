import KeyRack.Core.Error
import KeyRack.Lib.Process

/-!
# The gate of a PKCS#11 library

Calls and wrapping owners are admitted to a library one by one; a recovery closes the
gate, waits until nothing is admitted, finalizes and initializes the library and opens
the gate again. What happens while the gate's lock is held is one step. A wait may end at
any time: how often a caller finds the gate as it was before its deadline has passed is a
parameter.
-/
namespace KeyRack.Pkcs11

open Process

/-! ### The gate -/

structure GateState where
  inFlight : Nat
  closed : Bool
  deriving DecidableEq, Repr

/-- What one pass of the loop in `quiesce` finds. -/
inductive Drained where
  | quiet
  | waiting
  | gaveUp
  deriving DecidableEq, Repr

namespace GateState

/-- One pass of the loop in `admit`. -/
def tryAdmit (state : GateState) : Bool × GateState :=
  if state.closed then (false, state)
  else (true, { state with inFlight := state.inFlight + 1 })

def leave (state : GateState) : GateState := { state with inFlight := state.inFlight - 1 }

/-- One pass of the loop in `quiesce`; the first closes the gate, and the last, after the
    deadline, opens it again if calls are left. -/
def drain (first last : Bool) (state : GateState) : Drained × GateState :=
  let state := if first then { state with closed := true } else state
  if state.inFlight > 0 then
    if last then (.gaveUp, { state with closed := false }) else (.waiting, state)
  else (.quiet, state)

/-- `Drop for Quiesced`. -/
def reopen (state : GateState) : GateState := { state with closed := false }

end GateState

/-! ### Recovery -/

inductive RecoveryOutcome where
  | reinitialized
  | alreadyRecovered
  | deferredByInterval
  | notQuiesced
  | notFinalized
  | moduleDown
  deriving DecidableEq, Repr

namespace RecoveryOutcome

/-- Whether the caller may retry its operation now. -/
def permitsRetry : RecoveryOutcome → Bool
  | .reinitialized | .alreadyRecovered => true
  | _ => false

end RecoveryOutcome

/-- A failure of a call; the second is `recovery_pending_error`. -/
inductive CallError where
  | failed (error : KeyRackError)
  | recoveryPending (outcome : RecoveryOutcome) (original : KeyRackError)

def mayBeModuleFailure : KeyRackError → Bool
  | .provider _ | .providerUnavailable _ => true
  | _ => false

/-- Milliseconds. -/
def minReinitInterval : Nat := 2000

structure LastReinit where
  attempted : Option Nat
  leftUninitialized : Bool

def LastReinit.mayAttemptNow (last : LastReinit) (now : Nat) : Bool :=
  if last.leftUninitialized then true
  else match last.attempted with
    | some attempted => minReinitInterval ≤ now - attempted
    | none => true

/-- What `C_Initialize` returns. -/
inductive Initialized where
  | ok
  | alreadyInitialized
  | error
  deriving DecidableEq, Repr

/-! ### Calls -/

inductive ModuleCall where
  | generation
  | tryAdmit
  | leave
  | cleanupUnconfirmed
  | openSession
  | native
  | closeSession
  | lockReinit
  | unlockReinit
  | mayAttemptNow
  | drain (first last : Bool)
  | reopen
  | recordAttempt
  | cFinalize
  | cInitialize
  | setLeftUninitialized (down : Bool)
  | advanceGeneration

@[reducible] def ModuleCall.Reply : ModuleCall → Type
  | .generation => Nat
  | .tryAdmit => Bool
  | .leave => Unit
  | .cleanupUnconfirmed => Bool
  | .openSession => Except KeyRackError Unit
  | .native => Except KeyRackError Unit
  | .closeSession => Except KeyRackError Unit
  -- not when the lock is poisoned
  | .lockReinit => Bool
  | .unlockReinit => Unit
  | .mayAttemptNow => Bool
  | .drain _ _ => Drained
  | .reopen => Unit
  | .recordAttempt => Unit
  | .cFinalize => Bool
  | .cInitialize => Initialized
  | .setLeftUninitialized _ => Unit
  | .advanceGeneration => Unit

abbrev ModuleM : Type → Type := Prog ModuleCall ModuleCall.Reply

abbrev ModuleEvent : Type := Event ModuleCall ModuleCall.Reply

abbrev ModuleCall.make (c : ModuleCall) : ModuleM c.Reply := ask c

open ModuleCall

def admissionRefused : KeyRackError :=
  .providerUnavailable "PKCS#11 module is being reinitialized and did not become available"

/-- Admit one call, waiting while the gate is closed; after that many waits the deadline
    has passed. -/
def admits : Nat → ModuleM (Except KeyRackError Unit)
  | 0 => do
    let admitted ← tryAdmit.make
    if admitted then return .ok () else return .error admissionRefused
  | waits + 1 => do
    let admitted ← tryAdmit.make
    if admitted then return .ok () else admits waits

/-- Wait for the module to go quiet, from a first pass that closes the gate. -/
def quiesce (first : Bool) : Nat → ModuleM Bool
  | 0 => do
    let drained ← (drain first true).make
    return drained = .quiet
  | waits + 1 => do
    let drained ← (drain first false).make
    match drained with
    | .quiet => return true
    | .gaveUp => return false
    | .waiting => quiesce false waits

/-- Finalize and initialize the library, with the gate closed. -/
def restartLibrary : ModuleM RecoveryOutcome := do
  recordAttempt.make
  let _ ← cFinalize.make
  let initialized ← cInitialize.make
  match initialized with
  | .ok =>
    (setLeftUninitialized false).make
    advanceGeneration.make
    return .reinitialized
  | .alreadyInitialized =>
    (setLeftUninitialized false).make
    return .notFinalized
  | .error =>
    (setLeftUninitialized true).make
    return .moduleDown

/-- The part of `recover` that holds the lock of the last attempt. -/
def recoverLocked (waits seen : Nat) : ModuleM RecoveryOutcome := do
  let generation ← generation.make
  if generation ≠ seen then return .alreadyRecovered
  let may ← mayAttemptNow.make
  if !may then return .deferredByInterval
  let quiet ← quiesce true waits
  if !quiet then return .notQuiesced
  let outcome ← restartLibrary
  reopen.make
  return outcome

/-- Reinitialize the library so it re-reads the tokens present now. -/
def recover (waits seen : Nat) : ModuleM RecoveryOutcome := do
  let locked ← lockReinit.make
  if !locked then return .notFinalized
  let outcome ← recoverLocked waits seen
  unlockReinit.make
  return outcome

/-! ### Who uses the module -/

/-- Native calls, one after the other, until one fails. -/
def natives : Nat → ModuleM (Except KeyRackError Unit)
  | 0 => return .ok ()
  | count + 1 => do
    let result ← native.make
    match result with
    | .ok () => natives count
    | .error error => return .error error

/-- A call: some lookups, a session, and the work on it. The session is closed and the
    admission given back in this order when the locals are dropped. -/
def withSession (waits lookups work : Nat) : ModuleM (Except KeyRackError Unit) := do
  let admitted ← admits waits
  match admitted with
  | .error error => return .error error
  | .ok () =>
    let found ← natives lookups
    match found with
    | .error error =>
      leave.make
      return .error error
    | .ok () =>
      let opened ← openSession.make
      match opened with
      | .error error =>
        leave.make
        return .error error
      | .ok () =>
        let result ← natives work
        let _ ← closeSession.make
        leave.make
        return result

/-- Look the slot up again. -/
def resolveSlot (waits : Nat) : ModuleM (Except KeyRackError Unit) := do
  let admitted ← admits waits
  match admitted with
  | .error error => return .error error
  | .ok () =>
    let resolved ← natives 1
    leave.make
    return resolved

/-- How often each part waits. -/
structure Waits where
  first : Nat
  drain : Nat
  resolve : Nat
  second : Nat

/-- An operation of a provider: one recovery and one retry after a failure. -/
def run (waits : Waits) (work : Nat) : ModuleM (Except CallError Unit) := do
  let seen ← generation.make
  let first ← withSession waits.first 0 work
  match first with
  | .ok () => return .ok ()
  | .error error =>
    if !mayBeModuleFailure error then return .error (.failed error)
    let outcome ← recover waits.drain seen
    if !outcome.permitsRetry then return .error (.recoveryPending outcome error)
    let resolved ← resolveSlot waits.resolve
    match resolved with
    | .error _ => return .error (.failed error)
    | .ok () =>
      let second ← withSession waits.second 0 work
      return second.mapError .failed

/-- The constructor: find the slot, open a session and log in. -/
def new (waits : Waits) : ModuleM (Except CallError Unit) := do
  let seen ← generation.make
  let first ← withSession waits.first 1 1
  match first with
  | .ok () => return .ok ()
  | .error error =>
    let outcome ← recover waits.drain seen
    if !outcome.permitsRetry then return .error (.recoveryPending outcome error)
    let second ← withSession waits.second 1 1
    return second.mapError .failed

def cleanupUnconfirmedError : KeyRackError :=
  .provider ("context-derived PKCS#11 wrapping: native cleanup is unconfirmed; " ++
    "wrapping is disabled for this module until process restart")

/-- The life of a wrapping owner: it is made, used, and closed or dropped. -/
def ownerLife (waits work : Nat) : ModuleM (Except CallError Unit) := do
  let unconfirmed ← cleanupUnconfirmed.make
  if unconfirmed then return .error (.failed cleanupUnconfirmedError)
  let admitted ← admits waits
  match admitted with
  | .error error => return .error (.failed error)
  | .ok () =>
    -- the admission may have waited through a recovery
    let unconfirmed ← cleanupUnconfirmed.make
    if unconfirmed then
      leave.make
      return .error (.failed cleanupUnconfirmedError)
    let opened ← openSession.make
    match opened with
    | .error error =>
      leave.make
      return .error (.failed error)
    | .ok () =>
      let result ← natives work
      let _ ← closeSession.make
      leave.make
      return result.mapError .failed

/-! ### The shared state -/

structure ModuleState where
  gate : GateState
  generation : Nat
  last : LastReinit
  -- who has the lock of the last attempt
  reinit : Option Nat

def ModuleState.new : ModuleState where
  gate := ⟨0, false⟩
  generation := 0
  last := ⟨none, false⟩
  reinit := none

inductive ModuleAnswers : ModuleState → Nat → (c : ModuleCall) → c.Reply → ModuleState → Prop where
  | generation (w : ModuleState) (i : Nat) : ModuleAnswers w i .generation w.generation w
  | tryAdmit (w : ModuleState) (i : Nat) :
      ModuleAnswers w i .tryAdmit w.gate.tryAdmit.1 { w with gate := w.gate.tryAdmit.2 }
  | leave (w : ModuleState) (i : Nat) :
      ModuleAnswers w i .leave () { w with gate := w.gate.leave }
  | cleanupUnconfirmed (w : ModuleState) (i : Nat) (unconfirmed : Bool) :
      ModuleAnswers w i .cleanupUnconfirmed unconfirmed w
  | openSession (w : ModuleState) (i : Nat) (result : Except KeyRackError Unit) :
      ModuleAnswers w i .openSession result w
  | native (w : ModuleState) (i : Nat) (result : Except KeyRackError Unit) :
      ModuleAnswers w i .native result w
  | closeSession (w : ModuleState) (i : Nat) (result : Except KeyRackError Unit) :
      ModuleAnswers w i .closeSession result w
  | lockReinit (w : ModuleState) (i : Nat) (free : w.reinit = none) :
      ModuleAnswers w i .lockReinit true { w with reinit := some i }
  -- an attempt has panicked with the lock
  | poisonedReinit (w : ModuleState) (i : Nat) : ModuleAnswers w i .lockReinit false w
  | unlockReinit (w : ModuleState) (i : Nat) :
      ModuleAnswers w i .unlockReinit () { w with reinit := none }
  | mayAttemptNow (w : ModuleState) (i now : Nat) :
      ModuleAnswers w i .mayAttemptNow (w.last.mayAttemptNow now) w
  | drain (w : ModuleState) (i : Nat) (first last : Bool) :
      ModuleAnswers w i (.drain first last) (w.gate.drain first last).1
        { w with gate := (w.gate.drain first last).2 }
  | reopen (w : ModuleState) (i : Nat) :
      ModuleAnswers w i .reopen () { w with gate := w.gate.reopen }
  | recordAttempt (w : ModuleState) (i now : Nat) :
      ModuleAnswers w i .recordAttempt () { w with last := { w.last with attempted := some now } }
  | cFinalize (w : ModuleState) (i : Nat) (succeeds : Bool) :
      ModuleAnswers w i .cFinalize succeeds w
  | cInitialize (w : ModuleState) (i : Nat) (result : Initialized) :
      ModuleAnswers w i .cInitialize result w
  | setLeftUninitialized (w : ModuleState) (i : Nat) (down : Bool) :
      ModuleAnswers w i (.setLeftUninitialized down) ()
        { w with last := { w.last with leftUninitialized := down } }
  -- a `u64` that wraps
  | advanceGeneration (w : ModuleState) (i : Nat) :
      ModuleAnswers w i .advanceGeneration ()
        { w with generation := (w.generation + 1) % 2 ^ 64 }

/-- Any calls, constructions and wrapping owners. Nothing of this is cancelled: it runs on
    threads for blocking work. -/
def moduleRules :
    Rules ModuleState Nat ModuleCall ModuleCall.Reply (Except CallError Unit) Unit where
  starts p := (∃ waits work, p = run waits work) ∨ (∃ waits, p = new waits) ∨
    ∃ waits work, p = ownerLife waits work
  answers := ModuleAnswers
  drops _ _ _ _ := False
  environment _ _ _ := False

end KeyRack.Pkcs11
