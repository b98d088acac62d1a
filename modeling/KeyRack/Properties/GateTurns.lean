import KeyRack.Lib.History
import KeyRack.Pkcs11.Gate

/-!
# The turns of a participant

In which phase each participant of a PKCS#11 library makes each of its calls: it is
admitted and leaves, it opens its session and closes it, it takes the lock of the last
attempt, waits for the library to go quiet and finalizes and initializes it only then.
-/
namespace KeyRack.Pkcs11

open Process

/-! ### Where a participant is -/

inductive Phase where
  | idle
  | admitted
  | inSession
  | locked
  | draining
  | quiet
  deriving DecidableEq

namespace Phase

def after : Phase → ModuleEvent → Phase
  | _, ⟨.tryAdmit, true⟩ => .admitted
  | _, ⟨.leave, _⟩ => .idle
  | _, ⟨.openSession, .ok ()⟩ => .inSession
  | _, ⟨.closeSession, _⟩ => .admitted
  | _, ⟨.lockReinit, true⟩ => .locked
  | _, ⟨.unlockReinit, _⟩ => .idle
  | _, ⟨.drain _ _, .quiet⟩ => .quiet
  | _, ⟨.drain _ false, .waiting⟩ => .draining
  -- the last pass does not wait
  | _, ⟨.drain _ true, .waiting⟩ => .locked
  | _, ⟨.drain _ _, .gaveUp⟩ => .locked
  | _, ⟨.reopen, _⟩ => .locked
  | phase, _ => phase

/-- Admitted and not yet left: a running call, or an owner up to its close. -/
def isLive : Phase → Bool
  | .admitted | .inSession => true
  | _ => false

/-- Has the lock of the last attempt. -/
def isLocked : Phase → Bool
  | .locked | .draining | .quiet => true
  | _ => false

/-- Has closed the gate. -/
def isClosing : Phase → Bool
  | .draining | .quiet => true
  | _ => false

theorem isLocked_of_isClosing {phase : Phase} (closing : phase.isClosing = true) :
    phase.isLocked = true := by
  cases phase <;> first | rfl | cases closing

end Phase

def phase (own : List ModuleEvent) : Phase := own.foldl Phase.after .idle

@[simp] theorem phase_nil : phase [] = .idle := rfl

@[simp] theorem phase_concat (own : List ModuleEvent) (event : ModuleEvent) :
    phase (own ++ [event]) = (phase own).after event := by
  simp [phase]

/-- The phase in which each call is made. -/
def Phase.allows : Phase → ModuleCall → Bool
  | .idle, .tryAdmit | .idle, .lockReinit => true
  | .admitted, .openSession | .admitted, .leave | .admitted, .native => true
  | .inSession, .native | .inSession, .closeSession => true
  | .locked, .drain true _ | .locked, .unlockReinit => true
  | .draining, .drain false _ => true
  | .quiet, .recordAttempt | .quiet, .cFinalize | .quiet, .cInitialize
  | .quiet, .setLeftUninitialized _ | .quiet, .reopen => true
  | _, .generation | _, .cleanupUnconfirmed | _, .mayAttemptNow => true
  | _, _ => false

/-- A call in its phase; the generation is advanced right after the library was initialized. -/
def Permitted (own : List ModuleEvent) (c : ModuleCall) : Prop :=
  (phase own).allows c = true ∨ (c = .advanceGeneration ∧ phase own = .quiet ∧ ∃ earlier,
    own = earlier ++ [⟨.cInitialize, .ok⟩] ++ [⟨.setLeftUninitialized false, ()⟩])

/-! ### The programs -/

variable {own : List ModuleEvent} {α β : Type} {ensures : List ModuleEvent → α → Prop}

/-- A part that starts and ends in known phases. -/
def Takes (start : Phase) (ends : α → Phase) (p : ModuleM α) : Prop :=
  ∀ own, phase own = start → Obeys Permitted (fun later a => phase later = ends a) own p

theorem Takes.pure (a : α) (same : ends a = start) : Takes start ends (Pure.pure a) := by
  intro _ here
  exact here.trans same.symm

theorem Takes.bind (first : Takes start middle p) (rest : ∀ b, Takes (middle b) ends (f b)) :
    Takes start ends (p >>= f) := by
  intro own here
  apply obeys_bind.mpr
  apply (first own here).mono
  intro later b there
  exact rest b later there

/-- One call, whose reply decides the phase after it. -/
theorem takes_make {f : c.Reply → ModuleM α}
    (allowed : start.allows c = true) (rest : ∀ r, Takes (start.after ⟨c, r⟩) ends (f r)) :
    Takes start ends (c.make >>= f) := by
  intro _ here
  refine ⟨Or.inl (here ▸ allowed), fun r => ?_⟩
  apply rest r
  rw [phase_concat, here]

/-- Where an admission leads. -/
def admission : Except KeyRackError Unit → Phase
  | .ok () => .admitted
  | .error _ => .idle

theorem admits_takes (waits : Nat) : Takes .idle admission (admits waits) := by
  induction waits with
  | zero =>
    apply takes_make rfl
    intro admitted
    cases admitted
    · exact Takes.pure _ rfl
    · exact Takes.pure _ rfl
  | succ _ ih =>
    apply takes_make rfl
    intro admitted
    cases admitted
    · exact ih
    · exact Takes.pure _ rfl

theorem natives_takes (live : start.isLive = true) (count : Nat) :
    Takes start (fun _ => start) (natives count) := by
  have allowed : start.allows .native = true := by
    cases start <;> first | rfl | cases live
  induction count with
  | zero => exact Takes.pure _ rfl
  | succ _ ih =>
    apply takes_make allowed
    intro result
    cases result with
    | ok => exact ih
    | error => exact Takes.pure _ rfl

/-- The end of a call. -/
theorem leave_takes (a : α) :
    Takes .admitted (fun _ => .idle) (ModuleCall.leave.make >>= fun _ => pure a) :=
  takes_make rfl fun _ => Takes.pure a rfl

theorem withSession_takes (waits lookups work : Nat) :
    Takes .idle (fun _ => .idle) (withSession waits lookups work) := by
  apply (admits_takes waits).bind
  intro admitted
  cases admitted with
  | error => exact Takes.pure _ rfl
  | ok =>
    apply (natives_takes rfl lookups).bind
    intro found
    cases found with
    | error => exact leave_takes _
    | ok =>
      apply takes_make rfl
      intro opened
      cases opened with
      | error => exact leave_takes _
      | ok =>
        apply Takes.bind (natives_takes rfl work)
        intro _
        apply takes_make rfl
        intro _
        exact leave_takes _

theorem resolveSlot_takes (waits : Nat) : Takes .idle (fun _ => .idle) (resolveSlot waits) := by
  apply (admits_takes waits).bind
  intro admitted
  cases admitted with
  | error => exact Takes.pure _ rfl
  | ok =>
    apply (natives_takes rfl 1).bind
    intro _
    exact leave_takes _

/-- Where a wait for the module leads. -/
def drained (quiet : Bool) : Phase := if quiet then .quiet else .locked

theorem quiesce_takes (first : Bool) (waits : Nat) :
    Takes (if first then .locked else .draining) drained (quiesce first waits) := by
  induction waits generalizing first with
  | zero =>
    have allowed : (if first then Phase.locked else .draining).allows (.drain first true) =
        true := by
      cases first <;> rfl
    apply takes_make allowed
    intro found
    cases found <;> exact Takes.pure _ rfl
  | succ _ ih =>
    have allowed : (if first then Phase.locked else .draining).allows (.drain first false) =
        true := by
      cases first <;> rfl
    apply takes_make allowed
    intro found
    cases found with
    | quiet | gaveUp => exact Takes.pure _ rfl
    | waiting => exact ih false

/-- The library is finalized and initialized while the module is quiet. -/
theorem restartLibrary_takes : Takes .quiet (fun _ => .quiet) restartLibrary := by
  apply takes_make rfl
  intro _
  apply takes_make rfl
  intro _ own here
  refine ⟨Or.inl (by rw [here]; rfl), fun initialized => ?_⟩
  have still (initialized : Initialized) :
      phase (own ++ [⟨.cInitialize, initialized⟩]) = .quiet := by
    rw [phase_concat, here]
    rfl
  cases initialized with
  | ok =>
    refine ⟨Or.inl (by rw [still]; rfl), fun _ => ?_⟩
    have done : phase (own ++ [⟨.cInitialize, .ok⟩] ++ [⟨.setLeftUninitialized false, ()⟩]) =
        .quiet := by
      rw [phase_concat, still]
      rfl
    refine ⟨Or.inr ⟨rfl, done, own, rfl⟩, fun _ => ?_⟩
    change phase _ = _
    rw [phase_concat, done]
    rfl
  | alreadyInitialized | error =>
    refine ⟨Or.inl (by rw [still]; rfl), fun _ => ?_⟩
    change phase _ = _
    rw [phase_concat, still]
    rfl

theorem recoverLocked_takes (waits seen : Nat) :
    Takes .locked (fun _ => .locked) (recoverLocked waits seen) := by
  apply takes_make rfl
  intro _
  split
  · exact Takes.pure _ rfl
  · apply takes_make rfl
    intro may
    cases may with
    | false => exact Takes.pure _ rfl
    | true =>
      apply (quiesce_takes true waits).bind
      intro quiet
      cases quiet with
      | false => exact Takes.pure _ rfl
      | true =>
        apply restartLibrary_takes.bind
        intro _
        exact takes_make rfl fun _ => Takes.pure _ rfl

theorem recover_takes (waits seen : Nat) : Takes .idle (fun _ => .idle) (recover waits seen) := by
  apply takes_make rfl
  intro locked
  cases locked with
  | false => exact Takes.pure _ rfl
  | true =>
    apply Takes.bind (recoverLocked_takes waits seen)
    intro _
    exact takes_make rfl fun _ => Takes.pure _ rfl

theorem run_takes (waits : Waits) (work : Nat) : Takes .idle (fun _ => .idle) (run waits work) := by
  apply takes_make rfl
  intro seen
  apply Takes.bind (withSession_takes waits.first 0 work)
  intro first
  cases first with
  | ok => exact Takes.pure _ rfl
  | error error =>
    cases may : mayBeModuleFailure error with
    | false =>
      simp only [may]
      exact Takes.pure _ rfl
    | true =>
      simp only [may]
      apply (recover_takes waits.drain seen).bind
      intro outcome
      cases outcome.permitsRetry with
      | false => exact Takes.pure _ rfl
      | true =>
        apply (resolveSlot_takes waits.resolve).bind
        intro resolved
        cases resolved with
        | error => exact Takes.pure _ rfl
        | ok => exact (withSession_takes waits.second 0 work).bind fun _ => Takes.pure _ rfl

theorem new_takes (waits : Waits) : Takes .idle (fun _ => .idle) (new waits) := by
  apply takes_make rfl
  intro seen
  apply Takes.bind (withSession_takes waits.first 1 1)
  intro first
  cases first with
  | ok => exact Takes.pure _ rfl
  | error =>
    apply (recover_takes waits.drain seen).bind
    intro outcome
    cases outcome.permitsRetry with
    | false => exact Takes.pure _ rfl
    | true => exact (withSession_takes waits.second 1 1).bind fun _ => Takes.pure _ rfl

theorem ownerLife_takes (waits work : Nat) :
    Takes .idle (fun _ => .idle) (ownerLife waits work) := by
  apply takes_make rfl
  intro unconfirmed
  cases unconfirmed with
  | true => exact Takes.pure _ rfl
  | false =>
    apply Takes.bind (admits_takes waits)
    intro admitted
    cases admitted with
    | error => exact Takes.pure _ rfl
    | ok =>
      apply takes_make rfl
      intro unconfirmed
      cases unconfirmed with
      | true => exact leave_takes _
      | false =>
        apply takes_make rfl
        intro opened
        cases opened with
        | error => exact leave_takes _
        | ok =>
          apply Takes.bind (natives_takes rfl work)
          intro _
          apply takes_make rfl
          intro _
          exact leave_takes _

theorem participants_obey (startable : moduleRules.starts p) :
    Obeys Permitted (fun _ _ => True) [] p := by
  have takes : Takes .idle (fun _ => .idle) p := by
    obtain ⟨waits, work, rfl⟩ | ⟨waits, rfl⟩ | ⟨waits, work, rfl⟩ := startable
    · exact run_takes waits work
    · exact new_takes waits
    · exact ownerLife_takes waits work
  apply (takes [] rfl).mono
  intro _ _ _
  trivial

end KeyRack.Pkcs11
