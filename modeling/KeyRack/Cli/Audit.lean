import KeyRack.Core.AuditChain

/-!
# `keyrack audit verify`

The command reads a log line by line and compares the `previous_hash` of every event
with the link of the event before it; with a key it also checks the signatures. It
goes on after a bad event and fails at the end.
-/
namespace KeyRack.Cli

open Audit Fallible

inductive VerifyError where
  | cannotReadKey
  | keyLength (length : Nat)
  | cannotOpen
  | panicked (cause : Panic)
  -- the number of events that failed
  | failed (failures : Nat)
  deriving DecidableEq, Repr

/-- The lines that are printed. -/
inductive Report where
  | ok (eventNum : Nat)
  | malformedJson (eventNum : Nat)
  | invalidSignature (eventNum : Nat)
  | chainBreak (eventNum : Nat) (expected : String) (got : Option String)
  deriving DecidableEq, Repr

structure Verification where
  total : Nat
  failures : Nat
  expectedPrevHash : String
  printed : List Report
  deriving DecidableEq, Repr

def Verification.start : Verification := ⟨0, 0, chainGenesisHash, []⟩

variable [Ed25519Verify]

/-- A key file holds the 32 bytes of a signing key. -/
def loadVerifyingKey (file : Option Bytes) : Except VerifyError VerifyingKey := do
  let keyBytes ← okOr file .cannotReadKey
  if length : keyBytes.length = 32 then
    return Ed25519.verifyingKey ⟨keyBytes.toArray, by simpa using length⟩
  else throw (.keyLength keyBytes.length)

variable [Blake3] [AuditJson]

def signatureOk (verifyingKey : Option VerifyingKey) (event : AuditEvent) :
    Except VerifyError Bool :=
  match verifyingKey with
  | none => return true
  | some vk => mapErr (AuditSigner.verifyEvent event vk) .panicked

/-- One event against the hash that the events before it lead to. -/
def Verification.check (state : Verification) (eventNum : Nat) (event : AuditEvent)
    (sigOk : Bool) : Verification :=
  let chainOk := event.previousHash == some state.expectedPrevHash
  let failed := (if sigOk then [] else [.invalidSignature eventNum]) ++
    (if chainOk then [] else [.chainBreak eventNum state.expectedPrevHash event.previousHash])
  { total := state.total + 1
    failures := if sigOk && chainOk then state.failures else state.failures + 1
    -- what the event records, even if it failed
    expectedPrevHash := chainLink event
    printed := state.printed ++ if sigOk && chainOk then [.ok eventNum] else failed }

def verifyLine (verifyingKey : Option VerifyingKey) (state : Verification)
    (numbered : List Char × Nat) : Except VerifyError Verification := do
  let (line, lineIdx) := numbered
  if Text.isBlank line then return state
  else match AuditJson.fromStr (String.ofList line) with
    | none =>
      return { state with
        total := state.total + 1
        failures := state.failures + 1
        printed := state.printed ++ [.malformedJson (lineIdx + 1)] }
    | some event => do
      let sigOk ← signatureOk verifyingKey event
      return state.check (lineIdx + 1) event sigOk

/-- The command on the text of a log file and, when a path was given, the key file;
    a file that cannot be read is absent. -/
def verify (logFile : Option (List Char)) (keyPath : Option (Option Bytes)) :
    Except VerifyError Verification := do
  let verifyingKey ← keyPath.mapM loadVerifyingKey
  let text ← okOr logFile .cannotOpen
  let state ← (Text.lines text).zipIdx.foldlM (verifyLine verifyingKey) .start
  refuseIf (state.failures > 0) (.failed state.failures)
  return state

end KeyRack.Cli
