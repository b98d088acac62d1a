import KeyRack.Core.WrappedKey
import KeyRack.Lib.Assoc
import KeyRack.Lib.Process

/-!
# Cleanup of wrapped-key leases

A use of a wrapped key takes a slot, opens the child on the cleanup owner, operates and
closes. A guard that is dropped while a close is owed hands the close to the owner, which
tries it, retries it once and records what came of it; a drain stops the owner and
abandons what is still pending. Every step on the shared state is a call of its own.
-/
namespace KeyRack.Service

open Process Assoc Function

/-! ### Records -/

/-- What happened to one close that the request did not await. -/
inductive CleanupOutcome where
  | scheduled
  | closedAfterReturn
  | closeFailed
  | abandoned
  deriving DecidableEq, Repr

/-- Totals per outcome. -/
structure CleanupCounts where
  scheduled : Nat
  closedAfterReturn : Nat
  closeFailed : Nat
  abandoned : Nat
  deriving DecidableEq, Repr

def CleanupCounts.add (counts : CleanupCounts) : CleanupOutcome → CleanupCounts
  | .scheduled => { counts with scheduled := wrappingSucc counts.scheduled }
  | .closedAfterReturn => { counts with closedAfterReturn := wrappingSucc counts.closedAfterReturn }
  | .closeFailed => { counts with closeFailed := wrappingSucc counts.closeFailed }
  | .abandoned => { counts with abandoned := wrappingSucc counts.abandoned }

structure LeaseUse where
  keyId : String
  version : Nat
  provider : String
  deriving DecidableEq

/-- One admitted use. The source's slots share a counter and have no names; the number
    of the use tells them apart here. -/
structure Slot where
  use : Nat
  deriving DecidableEq

/-- What a cleanup record names, and the number of the use it belongs to. -/
structure LeaseSubject where
  use : Nat
  keyId : String
  version : Nat
  provider : String
  object : String
  contextSha256 : Digest
  deriving DecidableEq

def LeaseSubject.new (slot : Slot) (used : LeaseUse) (lease : WrappedKeyLease) : LeaseSubject where
  use := slot.use
  keyId := used.keyId
  version := used.version
  provider := used.provider
  object := lease.object.asStr
  contextSha256 := lease.contextSha256

/-- A running `Arc<dyn CryptoProvider>`. -/
abbrev ProviderId : Type := Nat

/-- A spawned task, and the handle to join it. -/
abbrev TaskId : Type := Nat

/-- An open wrapped lease that is owed a close. -/
structure LeaseGuard where
  provider : ProviderId
  lease : Option WrappedKeyLease
  handle : KeyHandle
  subject : LeaseSubject
  inFlight : Option TaskId
  slot : Option Slot
  deriving DecidableEq

abbrev Opened : Type := Except KeyRackError LeaseGuard

/-- What a close answers; nothing when the provider panics. -/
abbrev CloseAnswer : Type := Option (Except KeyRackError WrappedKeyClosure)

abbrev PendingEntry : Type := LeaseSubject × Option Slot

/-- The arguments of an open. -/
structure OpenRequest where
  provider : ProviderId
  context : WrappingContext
  parent : KeyHandle
  envelope : Bytes
  used : LeaseUse

/-- What runs on the owner. -/
inductive Work where
  | opening (slot : Slot) (request : OpenRequest)
  | closing (provider : ProviderId) (lease : WrappedKeyLease)
  | cleanup (id : Nat) (provider : ProviderId) (lease : WrappedKeyLease) (inFlight : Option TaskId)

/-- What becomes of a request that waits for its open; a value that was sent and not
    received goes with the receiver when the request is dropped. -/
inductive Answered where
  | received (opened : Opened)
  | senderGone
  | dropped (unreceived : Option Opened)

/-! ### Calls -/

inductive LeaseCall where
  | reserve
  | loadStopped
  | tryCurrent
  | spawnOn (work : Work)
  | fetchWork
  | openWrappedKey (request : OpenRequest)
  | closeWrappedKey (provider : ProviderId) (lease : WrappedKeyLease)
  | complete (answer : CloseAnswer)
  | send (use : Nat) (opened : Opened)
  | hangUp (use : Nat)
  | awaitOpen (use : Nat)
  | operate (handle : KeyHandle)
  | awaitClose (task : TaskId)
  | join (task : TaskId)
  | dropSlot (slot : Slot)
  | nextId
  | insertPending (id : Nat) (entry : PendingEntry)
  | removePending (id : Nat)
  | awaitTracker
  | storeStopped
  | takePending
  | record (outcome : CleanupOutcome) (subject : LeaseSubject) (error : Option KeyRackError)

@[reducible] def LeaseCall.Reply : LeaseCall → Type
  | .reserve => Option Slot
  | .loadStopped => Bool
  | .tryCurrent => Bool
  | .spawnOn _ => TaskId
  | .fetchWork => Work
  -- nothing when the provider panics
  | .openWrappedKey _ => Option (Except KeyRackError WrappedKeyLease)
  | .closeWrappedKey _ _ => CloseAnswer
  | .complete _ => Unit
  | .send _ _ => Bool
  | .hangUp _ => Unit
  | .awaitOpen _ => Answered
  -- whether the request is still there afterwards
  | .operate _ => Bool
  -- nothing when the request is dropped while it waits
  | .awaitClose _ => Option CloseAnswer
  | .join _ => CloseAnswer
  | .dropSlot _ => Unit
  | .nextId => Nat
  | .insertPending _ _ => Unit
  | .removePending _ => Option PendingEntry
  | .awaitTracker => Unit
  | .storeStopped => Unit
  | .takePending => List (Nat × PendingEntry)
  | .record _ _ _ => Unit

abbrev LeaseM : Type → Type := Prog LeaseCall LeaseCall.Reply

abbrev LeaseEvent : Type := Event LeaseCall LeaseCall.Reply

abbrev LeaseCall.make (c : LeaseCall) : LeaseM c.Reply := ask c

open LeaseCall

/-! ### The owner -/

namespace LeaseCleanup

def stoppedError : KeyRackError := .providerUnavailable "wrapped lease cleanup has stopped"

def panickedError : KeyRackError := .provider "wrapped lease close panicked in the provider"

/-- Run work on the owner, or nothing once it has stopped or outside a runtime. -/
def spawn (work : Work) : LeaseM (Option TaskId) := do
  let stopped ← loadStopped.make
  if stopped then return none
  let runtime ← tryCurrent.make
  if !runtime then return none
  let task ← (spawnOn work).make
  return some task

def record (outcome : CleanupOutcome) (subject : LeaseSubject) (error : Option KeyRackError) :
    LeaseM Unit := (LeaseCall.record outcome subject error).make

/-- The drop of a field that may hold a slot. -/
def dropSlot? : Option Slot → LeaseM Unit
  | some slot => (dropSlot slot).make
  | none => return ()

/-- Remove a pending close, releasing its slot. -/
def takePending (id : Nat) : LeaseM (Option LeaseSubject) := do
  let taken ← (removePending id).make
  match taken with
  | none => return none
  | some (subject, slot) =>
    dropSlot? slot
    return some subject

def settle (id : Nat) (result : Except KeyRackError WrappedKeyClosure) : LeaseM Unit := do
  let taken ← takePending id
  match taken with
  -- absent once abandoned at the drain deadline: that record stands
  | none => return ()
  | some subject =>
    match result with
    | .ok _ => record .closedAfterReturn subject none
    | .error error => record .closeFailed subject (some error)

/-- Take over a close the request can no longer await. -/
def detach (provider : ProviderId) (lease : WrappedKeyLease) (subject : LeaseSubject)
    (inFlight : Option TaskId) (slot : Option Slot) : LeaseM Unit := do
  let id ← nextId.make
  (insertPending id (subject, slot)).make
  let spawned ← spawn (.cleanup id provider lease inFlight)
  match spawned with
  | some _ => record .scheduled subject none
  | none =>
    let taken ← takePending id
    match taken with
    | some _ => record .abandoned subject none
    | none => return ()

/-- What a joined close task answered. -/
def joined : CloseAnswer → Except KeyRackError WrappedKeyClosure
  | some result => result
  | none => .error panickedError

/-- One close attempt, run as its own task on the owner. -/
def attemptClose (provider : ProviderId) (lease : WrappedKeyLease) :
    LeaseM (Except KeyRackError WrappedKeyClosure) := do
  let spawned ← spawn (.closing provider lease)
  match spawned with
  | none => return .error stoppedError
  | some task =>
    let answer ← (join task).make
    return joined answer

/-- The task that `detach` spawns: watch the close that was in flight, or close; one
    retry follows a failure. -/
def cleanup (id : Nat) (provider : ProviderId) (lease : WrappedKeyLease)
    (inFlight : Option TaskId) : LeaseM Unit := do
  let first ← match inFlight with
    | some task => do
      let answer ← (join task).make
      pure (joined answer)
    | none => attemptClose provider lease
  match first with
  | .ok closure => settle id (.ok closure)
  | .error _ =>
    let result ← attemptClose provider lease
    settle id result

end LeaseCleanup

/-! ### Guards -/

namespace LeaseGuard

open LeaseCleanup

/-- `Drop for LeaseGuard`, then the drop of its fields. -/
def drop (guard : LeaseGuard) : LeaseM Unit :=
  match guard.lease with
  | some lease => detach guard.provider lease guard.subject guard.inFlight guard.slot
  | none => dropSlot? guard.slot

/-- Close the lease and wait for the answer; the guard is dropped at the end, or where
    the request is dropped. -/
def close (guard : LeaseGuard) : LeaseM (Option (Except KeyRackError Unit)) := do
  match guard.lease with
  | none =>
    guard.drop
    return some (.ok ())
  | some lease =>
    let spawned ← spawn (.closing guard.provider lease)
    match spawned with
    | none =>
      guard.drop
      return some (.error stoppedError)
    | some task =>
      let answer ← (awaitClose task).make
      match answer with
      | none =>
        drop { guard with inFlight := some task }
        return none
      | some (some (.ok _)) =>
        drop { guard with lease := none }
        return some (.ok ())
      | some (some (.error error)) =>
        guard.drop
        return some (.error error)
      | some none =>
        guard.drop
        return some (.error panickedError)

end LeaseGuard

namespace LeaseCleanup

/-- The guard of a lease that was just opened. -/
def guardOf (slot : Slot) (request : OpenRequest) (lease : WrappedKeyLease) : LeaseGuard where
  provider := request.provider
  lease := some lease
  handle := lease.handle
  subject := .new slot request.used lease
  inFlight := none
  slot := some slot

/-- The task of an open. A guard nobody received is dropped here. -/
def opening (slot : Slot) (request : OpenRequest) : LeaseM Unit := do
  let opened ← (openWrappedKey request).make
  match opened with
  | none =>
    (dropSlot slot).make
    (hangUp slot.use).make
  | some (.error error) =>
    (dropSlot slot).make
    let _ ← (send slot.use (.error error)).make
    return ()
  | some (.ok lease) =>
    let guard := guardOf slot request lease
    let received ← (send slot.use (.ok guard)).make
    if received then return () else guard.drop

def closing (provider : ProviderId) (lease : WrappedKeyLease) : LeaseM Unit := do
  let answer ← (closeWrappedKey provider lease).make
  (complete answer).make

/-- Open a wrapped child for one use. Nothing is returned where the request is dropped
    while it waits. -/
def «open» (limit : Nat) (request : OpenRequest) : LeaseM (Option Opened) := do
  let reserved ← reserve.make
  match reserved with
  | none =>
    return some (.error (.providerUnavailable
      s!"wrapped lease limit of {limit} uses is reached; retry later"))
  | some slot =>
    let spawned ← spawn (.opening slot request)
    match spawned with
    | none =>
      -- the slot goes with the work that was not spawned
      (dropSlot slot).make
      return some (.error stoppedError)
    | some _ =>
      let answered ← (awaitOpen slot.use).make
      match answered with
      | .received opened => return some opened
      | .senderGone => return some (.error (.provider "wrapped lease open did not finish"))
      | .dropped (some (.ok guard)) =>
        guard.drop
        return none
      | .dropped _ => return none

/-- Stop the owner; what is still pending is abandoned. Returns how many were. -/
def drain : LeaseM Nat := do
  awaitTracker.make
  storeStopped.make
  let abandoned ← LeaseCall.takePending.make
  abandoned.forM fun entry => do
    dropSlot? entry.2.2
    record .abandoned entry.2.1 none
  return abandoned.length

end LeaseCleanup

/-! ### Participants -/

open LeaseCleanup

/-- The operations of a use, one after the other, until the request is dropped. -/
def operations (handle : KeyHandle) : Nat → LeaseM Bool
  | 0 => return true
  | count + 1 => do
    let alive ← (operate handle).make
    if alive then operations handle count else return false

/-- A request: open, operate, and close or drop the guard. -/
def useLease (limit : Nat) (request : OpenRequest) (count : Nat) (closes : Bool) :
    LeaseM (Option Nat) := do
  let opened ← LeaseCleanup.open limit request
  match opened with
  | some (.ok guard) =>
    let alive ← operations guard.handle count
    if alive && closes then
      let _ ← guard.close
      return none
    else
      guard.drop
      return none
  | _ => return none

/-- A task runs the work it was spawned with. -/
def runTask : LeaseM (Option Nat) := do
  let work ← fetchWork.make
  match work with
  | .opening slot request => opening slot request
  | .closing provider lease => closing provider lease
  | .cleanup id provider lease inFlight => cleanup id provider lease inFlight
  return none

/-- The shutdown; its result is the number of abandoned closes. -/
def runDrain : LeaseM (Option Nat) := some <$> drain

/-! ### The shared state -/

/-- A oneshot channel. -/
inductive Channel where
  | waiting
  | holds (opened : Opened)
  | hungUp
  -- received, or the receiver is gone
  | closed

structure LeaseState where
  limit : Nat
  stopped : Bool
  next : Nat
  occupied : Nat
  pending : FiniteMap Nat PendingEntry
  counts : CleanupCounts
  tasks : List Work
  answers : TaskId → Option CloseAnswer
  channels : Nat → Channel

def LeaseState.new (limit : Nat) : LeaseState where
  limit
  stopped := false
  next := 0
  occupied := 0
  pending := ∅
  counts := ⟨0, 0, 0, 0⟩
  tasks := []
  answers _ := none
  channels _ := .waiting

/-- The pending entries in the order of their numbers. -/
def LeaseState.entries (w : LeaseState) : List (Nat × PendingEntry) :=
  (w.pending.entries.map fun entry => (entry.1, entry.2)).mergeSort fun a b => a.1 ≤ b.1

/-- The slots that go with the entry that an insertion replaces. -/
def LeaseState.replaced (w : LeaseState) (id : Nat) : Nat :=
  match w.pending.lookup id with
  | some (_, some _) => 1
  | _ => 0

inductive Participant where
  | request (use : Nat)
  | task (id : TaskId)
  | drain (number : Nat)
  deriving DecidableEq

inductive LeaseAnswers (w : LeaseState) : Participant → (c : LeaseCall) → c.Reply → LeaseState →
    Prop where
  | reserved (use : Nat) (room : w.occupied < w.limit) :
      LeaseAnswers w (.request use) .reserve (some ⟨use⟩) { w with occupied := w.occupied + 1 }
  | full (i : Participant) (full : w.limit ≤ w.occupied) : LeaseAnswers w i .reserve none w
  | loadStopped (i : Participant) : LeaseAnswers w i .loadStopped w.stopped w
  | tryCurrent (i : Participant) (runtime : Bool) : LeaseAnswers w i .tryCurrent runtime w
  | spawnOn (i : Participant) (work : Work) :
      LeaseAnswers w i (.spawnOn work) w.tasks.length { w with tasks := w.tasks ++ [work] }
  | fetchWork (id : TaskId) (work : Work) (spawned : w.tasks[id]? = some work) :
      LeaseAnswers w (.task id) .fetchWork work w
  | openWrappedKey (i : Participant) (request : OpenRequest)
      (reply : Option (Except KeyRackError WrappedKeyLease)) :
      LeaseAnswers w i (.openWrappedKey request) reply w
  | closeWrappedKey (i : Participant) (provider : ProviderId) (lease : WrappedKeyLease)
      (reply : CloseAnswer) :
      LeaseAnswers w i (.closeWrappedKey provider lease) reply w
  | complete (id : TaskId) (answer : CloseAnswer) :
      LeaseAnswers w (.task id) (.complete answer) ()
        { w with answers := update w.answers id (some answer) }
  | sent (i : Participant) (use : Nat) (opened : Opened) (waiting : w.channels use = .waiting) :
      LeaseAnswers w i (.send use opened) true
        { w with channels := update w.channels use (.holds opened) }
  | unsent (i : Participant) (use : Nat) (opened : Opened)
      (closed : w.channels use = .closed) : LeaseAnswers w i (.send use opened) false w
  | hangUp (i : Participant) (use : Nat) (waiting : w.channels use = .waiting) :
      LeaseAnswers w i (.hangUp use) () { w with channels := update w.channels use .hungUp }
  | hangUpClosed (i : Participant) (use : Nat) (closed : w.channels use = .closed) :
      LeaseAnswers w i (.hangUp use) () w
  | received (use : Nat) (opened : Opened) (holds : w.channels use = .holds opened) :
      LeaseAnswers w (.request use) (.awaitOpen use) (.received opened)
        { w with channels := update w.channels use .closed }
  | senderGone (use : Nat) (hungUp : w.channels use = .hungUp) :
      LeaseAnswers w (.request use) (.awaitOpen use) .senderGone
        { w with channels := update w.channels use .closed }
  | droppedWaiting (use : Nat) (waiting : w.channels use = .waiting) :
      LeaseAnswers w (.request use) (.awaitOpen use) (.dropped none)
        { w with channels := update w.channels use .closed }
  | droppedHolding (use : Nat) (opened : Opened) (holds : w.channels use = .holds opened) :
      LeaseAnswers w (.request use) (.awaitOpen use) (.dropped (some opened))
        { w with channels := update w.channels use .closed }
  | droppedHungUp (use : Nat) (hungUp : w.channels use = .hungUp) :
      LeaseAnswers w (.request use) (.awaitOpen use) (.dropped none)
        { w with channels := update w.channels use .closed }
  | operate (i : Participant) (handle : KeyHandle) (alive : Bool) :
      LeaseAnswers w i (.operate handle) alive w
  | awaitClose (i : Participant) (task : TaskId) (answer : CloseAnswer)
      (done : w.answers task = some answer) : LeaseAnswers w i (.awaitClose task) (some answer) w
  | awaitDropped (i : Participant) (task : TaskId) : LeaseAnswers w i (.awaitClose task) none w
  | join (i : Participant) (task : TaskId) (answer : CloseAnswer)
      (done : w.answers task = some answer) : LeaseAnswers w i (.join task) answer w
  | dropSlot (i : Participant) (slot : Slot) :
      LeaseAnswers w i (.dropSlot slot) () { w with occupied := w.occupied - 1 }
  | nextId (i : Participant) :
      LeaseAnswers w i .nextId w.next { w with next := wrappingSucc w.next }
  | insertPending (i : Participant) (id : Nat) (entry : PendingEntry) :
      LeaseAnswers w i (.insertPending id entry) ()
        { w with pending := w.pending.insert id entry, occupied := w.occupied - w.replaced id }
  | removePending (i : Participant) (id : Nat) :
      LeaseAnswers w i (.removePending id) (w.pending.lookup id)
        { w with pending := w.pending.erase id }
  | awaitTracker (i : Participant) : LeaseAnswers w i .awaitTracker () w
  | storeStopped (i : Participant) : LeaseAnswers w i .storeStopped () { w with stopped := true }
  | takePending (i : Participant) : LeaseAnswers w i .takePending w.entries { w with pending := ∅ }
  | record (i : Participant) (outcome : CleanupOutcome) (subject : LeaseSubject)
      (error : Option KeyRackError) :
      LeaseAnswers w i (.record outcome subject error) () { w with counts := w.counts.add outcome }

/-- Any requests, the tasks that were spawned and any drains. Dropping a request runs the
    drop of its guard, so it is a reply at the places where it waits and not a rule. -/
def leaseRules (limit : Nat) :
    Rules LeaseState Participant LeaseCall LeaseCall.Reply (Option Nat) Unit where
  starts p := (∃ request count closes, p = useLease limit request count closes) ∨ p = runTask ∨
    p = runDrain
  answers := LeaseAnswers
  drops _ _ _ _ := False
  environment _ _ _ := False

end KeyRack.Service
