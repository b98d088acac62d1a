import KeyRack.Core.Audit
import KeyRack.Core.Evidence
import KeyRack.Lib.Process
import KeyRack.Lib.Text

/-!
# The audit chain

Audit events, the hash chain that links them, their signatures and the sinks that
chain or sign an event before it is written to a file. The JSON form of an event
belongs to a dependency and stays a parameter.
-/
namespace KeyRack.Audit

open Fallible Process

/-! ### Events -/

/-- A JSON value; a number is kept as its text. -/
inductive Json where
  | null
  | bool (value : Bool)
  | number (text : String)
  | string (value : String)
  | array (items : List Json)
  | object (fields : List (String × Json))

structure AuditPrincipal where
  id : String
  principalType : String
  deriving DecidableEq

structure AuditResource where
  id : String
  resourceType : String
  deriving DecidableEq

structure AuditEvent where
  schemaVersion : Nat
  eventId : String
  timestamp : DateTime
  eventType : EventType
  action : AuditAction
  principal : AuditPrincipal
  resource : AuditResource
  result : AuditResult
  encryptionContextHash : Option String
  tenant : Option String
  project : Option String
  srn : Option String
  requestId : Option String
  metadata : List (String × Json)
  signature : Option String
  previousHash : Option String

/-- `serde_json` on events: the compact text of an event, and reading one. -/
class AuditJson where
  toString : AuditEvent → String
  fromStr : String → Option AuditEvent

/-! ### Hexadecimal text -/

def hexEncode (bytes : Bytes) : String := String.ofList (bytes.flatMap hexByte)

/-- A string was cut inside a character. -/
inductive Panic where
  | notCharBoundary
  deriving DecidableEq, Repr

/-- A byte that continues a character. -/
def isContinuation (byte : UInt8) : Bool := 0x80 ≤ byte ∧ byte < 0xC0

/-- `u8::from_str_radix` on two bytes; it accepts a plus sign. -/
def fromStrRadix (first second : UInt8) : Option UInt8 :=
  if first = 0x2B then hexDigit second
  else do
    let high ← hexDigit first
    let low ← hexDigit second
    return high * 16 + low

/-- Two bytes at a time. The slice is taken before it is read, and reading stops at
    the first pair that is not a number. -/
def decodePairs : Bytes → Except Panic (Option Bytes)
  | first :: second :: rest =>
    if rest.head?.any isContinuation then throw .notCharBoundary
    else match fromStrRadix first second with
      | none => return none
      | some byte => do
        let bytes ← decodePairs rest
        return bytes.map (byte :: ·)
  | _ => return some []

def hexDecode (hex : String) : Except Panic (Option Bytes) :=
  if (utf8 hex).length % 2 ≠ 0 then return none
  else decodePairs (utf8 hex)

/-! ### The chain -/

section
variable [Blake3] [AuditJson]

/-- The `previous_hash` of the first event: 64 zeros. -/
def chainGenesisHash : String := String.ofList (List.replicate 64 '0')

/-- What the link of an event commits to: its signature when it is signed, its JSON
    otherwise. -/
def linkPreimage (event : AuditEvent) : String :=
  match event.signature with
  | some sigHex => sigHex
  | none => AuditJson.toString event

/-- The `previous_hash` that the event after this one must carry. -/
def chainLink (event : AuditEvent) : String :=
  hexEncode (Blake3.hash (utf8 (linkPreimage event))).toList

/-- How a linked event is finished before the head moves on. -/
inductive Seal where
  | unsigned
  | signed (key : SigningKey)

variable [Ed25519]

def Seal.apply : Seal → AuditEvent → AuditEvent
  | .unsigned, event => event
  | .signed key, event =>
    let sig := Ed25519.sign key (utf8 (AuditJson.toString event))
    { event with signature := some (hexEncode sig.toList) }

/-- The event with its place in the chain, and the new head. `AuditChain::append` is
    this with the seal `unsigned`, `AuditSigner::sign_event` with `signed`. -/
def AuditChain.link (head : String) (finish : Seal) (event : AuditEvent) : AuditEvent × String :=
  let linked := finish.apply { event with previousHash := some head, signature := none }
  (linked, chainLink linked)

end

/-! ### Signatures -/

/-- `VerifyingKey::verify`, beside the strict check. -/
class Ed25519Verify extends Ed25519 where
  verify : VerifyingKey → Bytes → Signature → Bool

/-- A signature of 64 bytes. -/
def signatureFromSlice (bytes : Bytes) : Option Signature :=
  if length : bytes.length = 64 then some ⟨bytes.toArray, by simpa using length⟩ else none

def AuditSigner.verifyEvent [AuditJson] [Ed25519Verify] (event : AuditEvent)
    (verifyingKey : VerifyingKey) : Except Panic Bool :=
  match event.signature with
  | none => return false
  | some sigHex => do
    match ← hexDecode sigHex with
    | none => return false
    | some sigBytes =>
      match signatureFromSlice sigBytes with
      | none => return false
      | some sig =>
        let canonical := AuditJson.toString { event with signature := none }
        return Ed25519Verify.verify verifyingKey (utf8 canonical) sig

/-! ### Sinks -/

/-- What an emitting task asks for, one step each: its place in the chain, under the
    lock of the head, and the operations on the file. -/
inductive SinkCall where
  | link (finish : Seal) (event : AuditEvent)
  | openAppend
  | writeAll (text : List Char)

@[reducible] def SinkCall.Reply : SinkCall → Type
  | .link _ _ => AuditEvent
  | .openAppend => Except String Unit
  | .writeAll _ => Except String Unit

abbrev SinkM : Type → Type := ExceptT KeyRackError (Prog SinkCall SinkCall.Reply)

/-- `.map_err(|e| KeyRackError::Other(e.to_string()))?`. -/
def orOther (reply : Except String Unit) : SinkM Unit := liftM (mapErr reply KeyRackError.other)

def FileSink.emit [AuditJson] (event : AuditEvent) : SinkM Unit := do
  let json := (AuditJson.toString event).toList
  let opened ← observe .openAppend
  orOther opened
  let written ← observe (.writeAll json)
  orOther written
  let ended ← observe (.writeAll [Text.newline])
  orOther ended

def emitThrough [AuditJson] (finish : Seal) (event : AuditEvent) : SinkM Unit := do
  let linked ← observe (.link finish event)
  FileSink.emit linked

def ChainingAuditSink.emit [AuditJson] : AuditEvent → SinkM Unit := emitThrough .unsigned

def SigningAuditSink.emit [AuditJson] (key : SigningKey) : AuditEvent → SinkM Unit :=
  emitThrough (.signed key)

/-! ### One process after another on one file -/

/-- The head of the running process's chain and the text of the file. A restart makes
    the next process, with a fresh sink; tasks of an earlier one get no more answers. -/
structure LogState where
  process : Nat
  head : String
  file : List Char

def LogState.start : LogState := ⟨0, chainGenesisHash, []⟩

/-- The task of a process. -/
abbrev TaskId : Type := Nat × Nat

inductive LogAnswers [Blake3] [AuditJson] [Ed25519] :
    LogState → TaskId → (c : SinkCall) → c.Reply → LogState → Prop where
  | link (s : LogState) (task : Nat) (finish : Seal) (event : AuditEvent) :
      LogAnswers s (s.process, task) (.link finish event)
        (AuditChain.link s.head finish event).1
        { s with head := (AuditChain.link s.head finish event).2 }
  | opened (s : LogState) (task : Nat) : LogAnswers s (s.process, task) .openAppend (.ok ()) s
  | openFailed (s : LogState) (task : Nat) (cause : String) :
      LogAnswers s (s.process, task) .openAppend (.error cause) s
  | written (s : LogState) (task : Nat) (text : List Char) :
      LogAnswers s (s.process, task) (.writeAll text) (.ok ()) { s with file := s.file ++ text }
  | writeFailed (s : LogState) (task : Nat) (text : List Char) (cause : String) :
      LogAnswers s (s.process, task) (.writeAll text) (.error cause) s

inductive Restarts : LogState → Unit → LogState → Prop where
  | restart (s : LogState) : Restarts s () ⟨s.process + 1, chainGenesisHash, s.file⟩

/-- Tasks that emit any events through a sink of one kind, and restarts. No emit
    suspends between its place in the chain and its last write, so none is dropped. -/
def logRules [Blake3] [AuditJson] [Ed25519] (finish : Seal) :
    Rules LogState TaskId SinkCall SinkCall.Reply (Except KeyRackError Unit) Unit where
  starts p := ∃ event, p = (emitThrough finish event).run
  answers := LogAnswers
  drops _ _ _ _ := False
  environment := Restarts

end KeyRack.Audit
