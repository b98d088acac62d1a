import KeyRack.Core.Custody
import KeyRack.Lib.Assoc
import KeyRack.Lib.Encoding
import KeyRack.Lib.Process
import KeyRack.Worker.Release

/-!
# Delivery of results

A result leaves the worker encrypted under a transport key of its own, in records
that a pipe takes whole or not at all. The key follows in a last record, the release
capsule, if the authority still admits it; until then the transport holds it as a
permit. The writer takes one record at a time to the sink and holds the transport's
lock only inside single operations, so that requests, fences and stops come between
any two of them.
-/
namespace KeyRack.Worker

open Assoc Encoding Fallible Process Stateful

inductive Error where
  | credential
  | authority
  | expired
  | replay
  | context
  | material
  | limit
  | crypto
  deriving DecidableEq, Repr

/-- POSIX minimum of `PIPE_BUF`. -/
def atomicBytes : Nat := 512

def maxQueued : Nat := 4

def maxResults : Nat := 3

def maxOutcomes : Nat := 4096

/-! ### Records -/

structure Authority where
  worker : String
  generation : Nat
  sequence : Nat
  grantSha256 : Digest
  notBefore : Nat
  expires : Nat
  deriving DecidableEq

/-- A piece of an encoded result, or of a control frame if there is no id. -/
structure Chunk where
  id : Option Nat
  part : Nat
  data : List Char
  last : Bool
  deriving DecidableEq, Repr

structure Capsule where
  id : Nat
  worker : String
  generation : Nat
  sequence : Nat
  grantSha256 : Digest
  key : Digest
  deriving DecidableEq

@[irreducible] def Chunk.text (chunk : Chunk) : List Char :=
  "\x7b\"event\":".toList ++
    jsonString (if chunk.id.isSome then "staged".toList else "control".toList) ++
    ",\"id\":".toList ++ jsonOption chunk.id ++ ",\"part\":".toList ++ jsonNumber chunk.part ++
    ",\"data\":".toList ++ jsonString chunk.data ++ ",\"last\":".toList ++ jsonBool chunk.last ++
    "\x7d".toList

@[irreducible] def Capsule.text (capsule : Capsule) : List Char :=
  "\x7b\"event\":\"release\",\"id\":".toList ++ jsonNumber capsule.id ++
    ",\"worker\":".toList ++ jsonString capsule.worker.toList ++
    ",\"generation\":".toList ++ jsonNumber capsule.generation ++
    ",\"sequence\":".toList ++ jsonNumber capsule.sequence ++
    ",\"grant_sha256\":".toList ++ jsonString (base64 capsule.grantSha256.toList) ++
    ",\"key\":".toList ++ jsonString (base64 capsule.key.toList) ++ "\x7d".toList

/-- The bytes of a record, with its newline. -/
def recordBytes (text : List Char) : Bytes := utf8 (String.ofList text) ++ [10]

def Chunk.bytes (chunk : Chunk) : Bytes := recordBytes chunk.text

def Capsule.bytes (capsule : Capsule) : Bytes := recordBytes capsule.text

/-- A record must fit into one write. -/
def checkRecord (bytes : Bytes) : Except Error Unit :=
  refuseIf (bytes.length > atomicBytes) .limit

/-- The text in pieces of 256 bytes. Base64 text has one byte per character. -/
def chunks (id : Option Nat) (encoded : List Char) : Except Error (List Chunk) :=
  (List.range ((encoded.length + 255) / 256)).mapM fun part => do
    let chunk : Chunk := {
      id
      part
      data := (encoded.drop (part * 256)).take 256
      last := decide ((part + 1) * 256 ≥ encoded.length) }
    checkRecord chunk.bytes
    return chunk

/-! ### State -/

structure Outcome where
  authority : Authority
  phase : Phase
  deriving DecidableEq

/-- A result that is ready to be staged. -/
structure Prepared where
  authority : Authority
  key : Digest
  encoded : List Char

structure Job where
  id : Option Nat
  records : List Chunk
  deriving DecidableEq

structure State where
  worker : String
  policy : Policy
  next : Nat
  -- the transport keys
  permits : FiniteMap Nat Digest
  outcomes : FiniteMap Nat Outcome
  faulted : Bool
  queue : List Job

namespace Outcome

/-- A terminal phase is never changed. -/
def suppress (outcome : Outcome) : Outcome :=
  if outcome.phase = .pending then { outcome with phase := .suppressed } else outcome

end Outcome

namespace State

def new (worker : String) : State where
  worker
  policy := {}
  next := 0
  permits := ∅
  outcomes := ∅
  faulted := false
  queue := []

def suppress (s : State) (id : Nat) : State :=
  { s with
    outcomes := s.outcomes.adjust id Outcome.suppress
    permits := s.permits.erase id }

def suppressPending (s : State) : State :=
  { s with
    outcomes := s.outcomes.adjustAll s.permits.keys Outcome.suppress
    permits := ∅ }

def failTransport (s : State) : State :=
  { ({ s with faulted := true, policy := s.policy.stop }).suppressPending with queue := [] }

def window (s : State) (a : Authority) : Window where
  incarnationMatches := a.worker == s.worker
  generation := a.generation
  notBefore := a.notBefore
  expires := a.expires

def allowed (s : State) (a : Authority) (now : Nat) : Bool := s.policy.allows (s.window a) now

end State

/-! ### Operations of the transport

Each of them runs under the lock. Clock readings are arguments, one for each time
the clock is read. -/

def enqueue (prepared : Prepared) (now now' : Nat) : EStateM Error State Unit := do
  let s ← get
  check (refuseIf (s.allowed prepared.authority now = false) .expired)
  check (refuseIf (s.queue.length ≥ maxQueued ∨ s.permits.size ≥ maxResults ∨
    s.outcomes.size ≥ maxOutcomes) .limit)
  let id ← check (okOr (checkedSucc s.next) .limit)
  set { s with next := id }
  let records ← check (chunks (some id) prepared.encoded)
  let (admitted, policy) := s.policy.admits (s.window prepared.authority) now'
  check (refuseIf (admitted = false) .expired)
  let job : Job := ⟨some id, records⟩
  set { s with
    next := id
    policy
    outcomes := s.outcomes.insert id (⟨prepared.authority, .pending⟩ : Outcome)
    permits := s.permits.insert id prepared.key
    queue := s.queue ++ [job] }

/-- Queue a control frame, given as its JSON document. -/
def control (value : Bytes) : EStateM Error State Unit := do
  let encoded := base64 value
  check (refuseIf (encoded.length > 90000) .limit)
  let s ← get
  check (refuseIf (s.policy.stopped = true ∨ s.queue.length ≥ maxQueued) .limit)
  let records ← check (chunks none encoded)
  let job : Job := ⟨none, records⟩
  set { s with queue := s.queue ++ [job] }

/-- The transport speaks for one incarnation, and for older generations only. -/
def State.fenceable (s : State) (worker : String) (generation : Nat) : Bool :=
  s.worker == worker && generation != 0 &&
    s.outcomes.values.all fun o => o.authority.worker == worker &&
      decide (o.authority.generation < generation)

def State.fence (s : State) : State :=
  { s with policy := (s.policy.fence true).2 }.suppressPending

/-- What a fence that was applied reports. -/
def State.disposition (s : State) : Except Error InFlightDisposition := do
  refuseIf (s.faulted = true ∨
    (s.outcomes.values.any fun o => o.phase == .pending || o.phase == .indeterminate) = true)
    .material
  return if s.outcomes.values.any fun o => o.phase == .suppressed then .furtherReleaseBlocked
    else .drained

/-- Apply a revocation to its owner and cancel what is not released, in one critical
    section. A refused revocation cancels nothing. -/
def fence {σ τ : Type} (worker : String) (generation : Nat) (apply : EStateM Error σ τ) :
    EStateM Error (σ × State) (τ × InFlightDisposition) := do
  let (owner, s) ← get
  check (refuseIf (s.fenceable worker generation = false) .authority)
  match apply owner with
  | .error e owner => do
    set (owner, s)
    throw e
  | .ok observation owner => do
    set (owner, s.fence)
    let disposition ← check s.fence.disposition
    return (observation, disposition)

def State.stop (s : State) : State :=
  { ({ s with policy := s.policy.stop }).suppressPending with queue := [] }

/-- Suppress what is no longer allowed; the clock is read once for each permit. A
    permit without an outcome would panic. -/
def State.expire (s : State) (now : Nat → Nat) : Option State := do
  let verdicts ← s.permits.keys.mapM fun id => do
    let outcome ← s.outcomes.lookup id
    return (id, s.allowed outcome.authority (now id))
  let expired := (verdicts.filter fun verdict => !verdict.2).map (·.1)
  return expired.foldl suppress s

def active (id now : Nat) : EStateM Error State Bool := do
  let s ← get
  let outcome ← check (okOr (s.outcomes.lookup id) .material)
  match outcome.phase with
  | .pending => do
    check (refuseIf ((s.permits.lookup id).isNone = true) .material)
    if s.allowed outcome.authority now then return true
    else do
      set (s.suppress id)
      return false
  | .suppressed => return false
  | .committed | .indeterminate => throw .material

/-! ### The sink -/

/-- What a sink reports of a write. -/
inductive WriteResult where
  | ok (n : Nat)
  | wouldBlock
  | interrupted
  | failed
  deriving DecidableEq, Repr

/-- What a sink does with a record: its report, and how many of the bytes it took. It
    takes nothing when it reports that it would block or was interrupted. -/
structure SinkAnswer where
  result : WriteResult
  taken : Nat
  quiet : result = .wouldBlock ∨ result = .interrupted → taken = 0

structure Write where
  bytes : Bytes
  answer : SinkAnswer

/-- What the report says about a record of that many bytes: it went out, or it can be
    tried again, or the pipe is broken. -/
def SinkAnswer.outcome (answer : SinkAnswer) (length : Nat) : Except Error Bool :=
  match answer.result with
  | .ok n => if n = length then .ok true else .error .material
  | .wouldBlock | .interrupted => .ok false
  | .failed => .error .material

/-- The transport with all writes to its sink, in order. -/
structure Transport where
  state : State
  sink : List Write

/-- Hand a record to the sink, which answers as given. -/
def atomic (answer : SinkAnswer) (bytes : Bytes) : StateM (List Write) (Except Error Bool) := do
  modify (· ++ [⟨bytes, answer⟩])
  return answer.outcome bytes.length

/-- The final admission, the write and the record of its outcome. -/
def releaseCapsule (outcome : Outcome) (capsule : Capsule) (now : Nat) (answer : SinkAnswer) :
    EStateM Error Transport Phase := do
  let w ← get
  let s := w.state
  let ((phase, result), sink) := (s.policy.release outcome.phase (s.window outcome.authority) now
    (atomic answer capsule.bytes)).run w.sink
  let s := { s with outcomes := s.outcomes.insert capsule.id { outcome with phase } }
  match result with
  | .ok .pending => do
    set (⟨s, sink⟩ : Transport)
    return .pending
  | .ok phase => do
    set (⟨{ s with permits := s.permits.erase capsule.id }, sink⟩ : Transport)
    return phase
  | .error e => do
    set (⟨{ s with permits := s.permits.erase capsule.id }.failTransport, sink⟩ : Transport)
    throw e

/-- Release the key of a delivery. -/
def release (id now now' : Nat) (answer : SinkAnswer) : EStateM Error Transport Phase := do
  let w ← get
  let s := w.state
  let outcome ← check (okOr (s.outcomes.lookup id) .material)
  match outcome.phase with
  | .committed => return .committed
  | .suppressed => return .suppressed
  | .indeterminate => throw .material
  | .pending =>
    let a := outcome.authority
    if s.allowed a now = false then do
      set { w with state := s.suppress id }
      return .suppressed
    else do
      let key ← check (okOr (s.permits.lookup id) .material)
      let capsule : Capsule := ⟨id, a.worker, a.generation, a.sequence, a.grantSha256, key⟩
      match checkRecord capsule.bytes with
      -- nothing was written, so the cancellation is known
      | .error e => do
        set { w with state := s.failTransport }
        throw e
      | .ok () => releaseCapsule outcome capsule now' answer

/-! ### The writer -/

inductive WriterCall where
  | expire
  | stopped
  | popFront
  | active (id : Nat)
  | write (chunk : Chunk)
  | release (id : Nat)
  | failTransport

@[reducible] def WriterCall.Reply : WriterCall → Type
  | .expire | .failTransport => Unit
  | .stopped => Bool
  | .popFront => Option Job
  | .active _ => Except Error Bool
  | .write _ => SinkAnswer
  | .release _ => Except Error Phase

abbrev WriterProg : Type → Type := Prog WriterCall WriterCall.Reply

abbrev WriterM : Type → Type := ExceptT Error WriterProg

/-- The notice that takes the place of a suppressed result. -/
def suppressedJob (id : Nat) : Except Error Job := do
  let notice := "\x7b\"error\":\"output suppressed\",\"delivery\":".toList ++ jsonNumber id ++
    "\x7d".toList
  let records ← chunks none (base64 (utf8 (String.ofList notice)))
  return ⟨none, records⟩

/-- The job to go on with; a delivery that is no longer active becomes its notice. -/
def refresh (job : Job) : WriterM Job :=
  match job.id with
  | none => return job
  | some id => do
    let active ← liftM (← observe (WriterCall.active id))
    if active then return job else liftM (suppressedJob id)

/-- Take the next record of a job to the sink, and the capsule after the last one. -/
def deliver (job : Job) : WriterM (Option Job) :=
  match job.records with
  | chunk :: rest => do
    let answer ← observe (WriterCall.write chunk)
    let sent ← liftM (answer.outcome chunk.bytes.length)
    return some (if sent then { job with records := rest } else job)
  | [] =>
    match job.id with
    | none => return none
    | some id => do
      match ← liftM (← observe (WriterCall.release id)) with
      | .committed => return none
      | .pending => return some job
      | .indeterminate => throw .material
      | .suppressed => return some (← liftM (suppressedJob id))

/-- The job that the writer holds, or the next one of the queue. -/
def currentJob : Option Job → WriterM (Option Job)
  | some job => return some job
  | none => observe WriterCall.popFront

def stepInner (current : Option Job) : WriterM (Option Job) := do
  observe WriterCall.expire
  if ← observe WriterCall.stopped then return none
  else
    match ← currentJob current with
    | none => return none
    | some job => do deliver (← refresh job)

/-- One step: the result, and the job that the writer holds afterwards. -/
def writerStep (current : Option Job) : WriterProg (Except Error Unit × Option Job) := do
  match ← (stepInner current).run with
  | .ok current => return (.ok (), current)
  | .error e => do
    ask WriterCall.failTransport
    return (.error e, none)

/-- A writer that makes a number of steps. -/
def writerSteps : Nat → Option Job → WriterProg Unit
  | 0, _ => return ()
  | n + 1, current => do
    let (_, current) ← writerStep current
    writerSteps n current

/-! ### The system -/

/-- What the rest of the worker does to the transport. -/
inductive Operation where
  | enqueue (prepared : Prepared) (now now' : Nat)
  | control (value : Bytes)
  | fence (worker : String) (generation : Nat) (apply : Except Error Unit)
  | stop

def Operation.run (op : Operation) (s : State) : State :=
  match op with
  | .enqueue prepared now now' => after (Worker.enqueue prepared now now' s)
  | .control value => after (Worker.control value s)
  | .fence worker generation apply =>
    (after (Worker.fence worker generation (check apply : EStateM Error Unit Unit) ((), s))).2
  | .stop => s.stop

/-- How a call of the writer is answered, at any reading of the clock and by any sink. -/
inductive WriterCall.Answers (w : Transport) : (c : WriterCall) → c.Reply → Transport → Prop where
  | expire (now : Nat → Nat) (t : State) (expired : w.state.expire now = some t) :
      Answers w .expire () { w with state := t }
  | stopped : Answers w .stopped w.state.policy.stopped w
  | popFront : Answers w .popFront w.state.queue.head?
      { w with state := { w.state with queue := w.state.queue.tail } }
  | active (id now : Nat) (reply : Except Error Bool) (t : State)
      (answered : Stateful.run (Worker.active id now) w.state = (reply, t)) :
      Answers w (.active id) reply { w with state := t }
  | write (chunk : Chunk) (answer : SinkAnswer) :
      Answers w (.write chunk) answer { w with sink := w.sink ++ [⟨chunk.bytes, answer⟩] }
  | release (id now now' : Nat) (answer : SinkAnswer) (reply : Except Error Phase) (t : Transport)
      (answered : Stateful.run (Worker.release id now now' answer) w = (reply, t)) :
      Answers w (.release id) reply t
  | failTransport : Answers w .failTransport () { w with state := w.state.failTransport }

/-- Any number of writers over one transport, with the other operations in between. -/
def deliveryRules (ι : Type) :
    Rules Transport ι WriterCall WriterCall.Reply Unit Operation where
  starts p := ∃ n, p = writerSteps n none
  answers w _ c reply w' := c.Answers w reply w'
  drops _ _ _ _ := False
  environment w op w' := w' = { w with state := op.run w.state }

end KeyRack.Worker
