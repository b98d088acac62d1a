import KeyRack.Cli.Audit
import KeyRack.Lib.HashChain

/-!
# Tamper evidence of the audit log

What the command accepts: a log whose lines all read as events, linked from the
genesis hash, with good signatures when a key is given. A link commits to the JSON of
an unsigned event but to nothing except the signature text of a signed one, so without
a key two accepted logs that end in the same event may differ before it exactly where
a signature stands for two different events.
-/
namespace KeyRack.Audit

open Fallible List

/-! ### Hexadecimal text -/

theorem utf8_append (s t : String) : utf8 (s ++ t) = utf8 s ++ utf8 t := by
  simp [utf8, String.toByteArray_append]

/-- The bytes of the two digits of a byte. -/
def hexPair (byte : UInt8) : Bytes := utf8 (String.ofList (hexByte byte))

theorem utf8_hexEncode (bytes : Bytes) : utf8 (hexEncode bytes) = bytes.flatMap hexPair := by
  induction bytes with
  | nil => decide +kernel
  | cons byte bytes ih =>
    have split : hexEncode (byte :: bytes) = String.ofList (hexByte byte) ++ hexEncode bytes := by
      simp [hexEncode]
    rw [split, utf8_append, ih, flatMap_cons, hexPair]

/-- The digits of a byte are two ASCII bytes that read as that byte. -/
theorem hexPair_read (byte : UInt8) : ∃ first second, hexPair byte = [first, second] ∧
    isContinuation first = false ∧ fromStrRadix first second = some byte := by
  have all : ∀ n : Fin 256, ((hexPair (UInt8.ofNat n)).length = 2 ∧
      isContinuation ((hexPair (UInt8.ofNat n)).getD 0 0) = false ∧
      fromStrRadix ((hexPair (UInt8.ofNat n)).getD 0 0) ((hexPair (UInt8.ofNat n)).getD 1 0) =
        some (UInt8.ofNat n)) := by
    decide +kernel
  have here := all ⟨byte.toNat, byte.toNat_lt⟩
  simp only [UInt8.ofNat_toNat] at here
  obtain ⟨length, ascii, read⟩ := here
  obtain ⟨first, second, pair⟩ := length_eq_two.mp length
  rw [pair] at ascii read
  exact ⟨first, second, pair, ascii, read⟩

theorem decodePairs_hex (bytes : Bytes) :
    decodePairs (bytes.flatMap hexPair) = .ok (some bytes) := by
  induction bytes with
  | nil => rfl
  | cons byte bytes ih =>
    obtain ⟨_, _, pair, -, read⟩ := hexPair_read byte
    have boundary : (bytes.flatMap hexPair).head?.any isContinuation = false := by
      cases bytes with
      | nil => rfl
      | cons next =>
        obtain ⟨_, _, pair, ascii, -⟩ := hexPair_read next
        simp [pair, ascii]
    rw [flatMap_cons, pair]
    simp only [cons_append, nil_append, decodePairs, boundary, read, ih]
    rfl

/-- Hexadecimal text reads back as the bytes it was made from. -/
theorem hexDecode_hexEncode (bytes : Bytes) : hexDecode (hexEncode bytes) = .ok (some bytes) := by
  have even : (bytes.flatMap hexPair).length % 2 = 0 := by
    induction bytes with
    | nil => rfl
    | cons byte =>
      obtain ⟨_, _, pair, -, -⟩ := hexPair_read byte
      simp only [flatMap_cons, pair, length_append, length_cons, length_nil]
      omega
  rw [hexDecode, utf8_hexEncode, if_neg (by omega), decodePairs_hex]

theorem signatureFromSlice_toList (sig : Signature) : signatureFromSlice sig.toList = some sig := by
  simp [signatureFromSlice, Vector.toList]

theorem hexEncode_inj (same : hexEncode bytes = hexEncode bytes') : bytes = bytes' := by
  have decoded := hexDecode_hexEncode bytes
  rw [same, hexDecode_hexEncode bytes'] at decoded
  exact (Option.some.inj (Except.ok.inj decoded)).symm

end KeyRack.Audit

namespace KeyRack.Cli

open Audit Fallible HashChain

section
variable [AuditJson]

/-! ### Accepted logs -/

def readLines (lines : List (List Char)) : Option (List AuditEvent) :=
  (lines.filter fun line => !Text.isBlank line).mapM fun line =>
    AuditJson.fromStr (String.ofList line)

/-- The events of a log file, if every line that is not blank is one. -/
def readLog (text : List Char) : Option (List AuditEvent) := readLines (Text.lines text)

theorem readLines_blank (blank : Text.isBlank line = true) :
    readLines (line :: lines) = readLines lines := by
  simp [readLines, blank]

variable {log : List AuditEvent}

theorem readLines_cons (visible : Text.isBlank line = false) :
    readLines (line :: lines) = some log ↔
      ∃ event rest, AuditJson.fromStr (String.ofList line) = some event ∧
        readLines lines = some rest ∧ log = event :: rest := by
  simp only [readLines, visible, Bool.not_false, List.filter_cons_of_pos, List.mapM_cons,
    Option.bind_eq_bind, Option.bind_eq_some_iff, Option.pure_def, Option.some.injEq]
  constructor
  · rintro ⟨event, read, rest, others, rfl⟩
    exact ⟨event, rest, read, others, rfl⟩
  · rintro ⟨event, rest, read, others, rfl⟩
    exact ⟨event, read, rest, others, rfl⟩

variable [Blake3]

abbrev Chained : String → List AuditEvent → Prop := Linked AuditEvent.previousHash chainLink

variable {state : Verification} {event : AuditEvent}

theorem failures_check :
    (state.check eventNum event sigOk).failures = 0 ↔
      state.failures = 0 ∧ sigOk = true ∧ event.previousHash = some state.expectedPrevHash := by
  unfold Verification.check
  by_cases good : sigOk = true ∧ event.previousHash = some state.expectedPrevHash
  · simp [good]
  · have bad : (sigOk && event.previousHash == some state.expectedPrevHash) = false := by
      simpa using good
    simp [bad, good]

variable [Ed25519Verify] {verifyingKey : Option VerifyingKey}

/-- The events continue the chain from this hash, and their signatures are good. -/
def Sound (verifyingKey : Option VerifyingKey) (expected : String) (log : List AuditEvent) : Prop :=
  Chained expected log ∧ ∀ event ∈ log, signatureOk verifyingKey event = .ok true

theorem sound_cons :
    Sound verifyingKey expected (event :: log) ↔ event.previousHash = some expected ∧
      signatureOk verifyingKey event = .ok true ∧ Sound verifyingKey (chainLink event) log := by
  simp only [Sound, Linked, List.forall_mem_cons]
  constructor
  · rintro ⟨⟨names, linked⟩, good, others⟩
    exact ⟨names, good, linked, others⟩
  · rintro ⟨names, good, linked, others⟩
    exact ⟨⟨names, linked⟩, good, others⟩

/-- The lines from some point on add no failure exactly when they hold sound events. -/
theorem verifyLines_ok {numbered : List (List Char × Nat)} :
    (∃ final, numbered.foldlM (verifyLine verifyingKey) state = .ok final ∧ final.failures = 0) ↔
      state.failures = 0 ∧ ∃ log, readLines (numbered.map Prod.fst) = some log ∧
        Sound verifyingKey state.expectedPrevHash log := by
  induction numbered generalizing state with
  | nil => simp [readLines, Sound, Linked, pure, Except.pure]
  | cons entry _ ih =>
    obtain ⟨line, lineIdx⟩ := entry
    simp only [List.foldlM_cons, List.map_cons, verifyLine, bind_eq_ok]
    by_cases blank : Text.isBlank line = true
    · simp only [blank, if_true, pure_eq_ok, readLines_blank blank, exists_eq_left']
      exact ih
    · have visible : Text.isBlank line = false := by simpa using blank
      simp only [visible, Bool.false_eq_true, if_false]
      cases read : AuditJson.fromStr (String.ofList line) with
      | none =>
        -- one more failure than before
        simp only [pure_eq_ok, exists_eq_left', ih, readLines_cons visible, read]
        simp
      | some event =>
        simp only [eq_ok]
        constructor
        · rintro ⟨final, ⟨_, ⟨_, signature, rfl⟩, ran⟩, none⟩
          obtain ⟨clean, rest, others, sound⟩ := ih.mp ⟨final, ran, none⟩
          obtain ⟨before, rfl, names⟩ := failures_check.mp clean
          exact ⟨before, event :: rest,
            (readLines_cons visible).mpr ⟨event, rest, read, others, rfl⟩,
            sound_cons.mpr ⟨names, signature, sound⟩⟩
        · rintro ⟨before, _, read', sound⟩
          obtain ⟨_, rest, found, others, rfl⟩ := (readLines_cons visible).mp read'
          cases read.symm.trans found
          obtain ⟨names, signature, later⟩ := sound_cons.mp sound
          have clean : (state.check (lineIdx + 1) event true).failures = 0 :=
            failures_check.mpr ⟨before, rfl, names⟩
          obtain ⟨final, ran, none⟩ := ih.mpr ⟨clean, rest, others, later⟩
          exact ⟨final, ⟨_, ⟨true, signature, rfl⟩, ran⟩, none⟩

/-- The command accepts a log exactly when all its lines are events that are sound
    from the genesis hash on. -/
theorem verify_ok {text : List Char} :
    (∃ final, verify (some text) keyPath = .ok final) ↔
      ∃ verifyingKey, keyPath.mapM loadVerifyingKey = .ok verifyingKey ∧
        ∃ log, readLog text = some log ∧ Sound verifyingKey chainGenesisHash log := by
  have ran (verifyingKey : Option VerifyingKey) :=
    @verifyLines_ok _ _ .start _ verifyingKey (Text.lines text).zipIdx
  simp only [verify, okOr, eq_ok, Except.ok.injEq, exists_eq_left']
  constructor
  · rintro ⟨_, verifyingKey, loaded, final, fold, _, _, rfl⟩
    obtain ⟨-, log, read, sound⟩ := (ran verifyingKey).mp ⟨final, fold, by omega⟩
    rw [List.zipIdx_map_fst] at read
    exact ⟨verifyingKey, loaded, log, read, sound⟩
  · rintro ⟨verifyingKey, loaded, log, read, sound⟩
    rw [readLog, ← List.zipIdx_map_fst 0 (Text.lines text)] at read
    obtain ⟨final, fold, _⟩ := (ran verifyingKey).mpr ⟨rfl, log, read, sound⟩
    exact ⟨final, verifyingKey, loaded, final, fold, (), by omega, rfl⟩

end

/-! ### What a link commits to -/

section
variable [AuditJson]

/-- Where an event is signed, its signature does not stand for the other event: it is
    not the signature of a different event and not the JSON of an unsigned one. -/
def Pinned (event event' : AuditEvent) : Prop :=
  match event.signature, event'.signature with
  | none, none => True
  | some sigHex, some sigHex' => sigHex = sigHex' → event = event'
  | some sigHex, none => sigHex ≠ AuditJson.toString event'
  | none, some sigHex' => sigHex' ≠ AuditJson.toString event

theorem pinned_refl (event : AuditEvent) : Pinned event event := by
  unfold Pinned
  cases event.signature <;> simp

variable [Blake3]

/-- No two events of the list have the same JSON, and no two have link preimages with
    the same hash, without being equal or having equal preimages. -/
structure Separate (events : List AuditEvent) : Prop where
  json : ∀ event ∈ events, ∀ event' ∈ events,
    AuditJson.toString event = AuditJson.toString event' → event = event'
  hash : ∀ event ∈ events, ∀ event' ∈ events,
    Blake3.hash (utf8 (linkPreimage event)) = Blake3.hash (utf8 (linkPreimage event')) →
      linkPreimage event = linkPreimage event'

variable {event : AuditEvent}

/-- Equal links mean equal events where the signatures pin the events down. -/
theorem eq_of_pinned (separate : Separate events) (member : event ∈ events)
    (member' : event' ∈ events) (pinned : Pinned event event')
    (links : chainLink event = chainLink event') : event = event' := by
  have preimage := separate.hash event member event' member'
    (Vector.toList_inj.mp (hexEncode_inj links))
  unfold Pinned at pinned
  unfold linkPreimage at preimage
  cases signature : event.signature with
  | none =>
    cases signature' : event'.signature with
    | none =>
      rw [signature, signature'] at preimage
      exact separate.json event member event' member' preimage
    | some =>
      rw [signature, signature'] at preimage pinned
      exact absurd preimage.symm pinned
  | some =>
    cases signature' : event'.signature with
    | none =>
      rw [signature, signature'] at preimage pinned
      exact absurd preimage pinned
    | some =>
      rw [signature, signature'] at preimage pinned
      exact pinned preimage

/-- Two chains that end in the same event agree before it exactly when their events
    are pinned down place by place. -/
theorem chained_agree
    (separate : Separate (log ++ log')) (chained : Chained chainGenesisHash (log ++ [last]))
    (chained' : Chained chainGenesisHash (log' ++ [last])) :
    log = log' ↔ List.Forall₂ Pinned log log' := by
  constructor
  · rintro rfl
    exact List.forall₂_same.mpr fun event _ => pinned_refl event
  · intro pinned
    have commits : List.Forall₂
        (fun event event' => chainLink event = chainLink event' → event = event') log log' := by
      obtain ⟨length, pins⟩ := List.forall₂_iff_zip.mp pinned
      apply List.forall₂_iff_zip.mpr ⟨length, _⟩
      intro _ _ paired
      obtain ⟨member, member'⟩ := List.of_mem_zip paired
      exact eq_of_pinned separate (List.mem_append_left _ member) (List.mem_append_right _ member')
        (pins paired)
    exact (eq_of_concat_eq chained chained' commits).1

theorem Separate.subset (separate : Separate events)
    (subset : fewer ⊆ events) : Separate fewer where
  json event member event' member' := separate.json event (subset member) event' (subset member')
  hash event member event' member' := separate.hash event (subset member) event' (subset member')

variable [Ed25519Verify]

theorem chained_of_verify {text : List Char}
    (read : readLog text = some log) (accepted : ∃ final, verify (some text) keyPath = .ok final) :
    Chained chainGenesisHash log := by
  obtain ⟨_, -, _, read', sound⟩ := verify_ok.mp accepted
  cases read.symm.trans read'
  exact sound.1

/-- Two accepted logs that have the same event at some place agree before it exactly
    when their events are pinned down there; at the last place that is all of them. -/
theorem tamper_evidence {text text' : List Char} {log log' : List AuditEvent}
    (read : readLog text = some log) (read' : readLog text' = some log')
    (accepted : ∃ final, verify (some text) none = .ok final)
    (accepted' : ∃ final, verify (some text') none = .ok final)
    (sameLength : log.length = log'.length) (separate : Separate (log ++ log')) :
    (∀ last, log.getLast? = some last → log'.getLast? = some last →
      (log = log' ↔ List.Forall₂ Pinned log.dropLast log'.dropLast)) ∧
    ∀ (k : Nat) (event : AuditEvent), log[k]? = some event → log'[k]? = some event →
      (log.take k = log'.take k ↔ List.Forall₂ Pinned (log.take k) (log'.take k)) := by
  have chained := chained_of_verify read accepted
  have chained' := chained_of_verify read' accepted'
  have agree (k : Nat) (event : AuditEvent) (here : log[k]? = some event)
      (there : log'[k]? = some event) :
      log.take k = log'.take k ↔ List.Forall₂ Pinned (log.take k) (log'.take k) := by
    apply @chained_agree _ _ _ _ event
    · apply separate.subset
      apply List.append_subset.mpr
      exact ⟨fun e member => List.mem_append_left _ (List.mem_of_mem_take member),
        fun e member => List.mem_append_right _ (List.mem_of_mem_take member)⟩
    · have upTo := chained.take (k + 1)
      rwa [List.take_add_one, here] at upTo
    · have upTo := chained'.take (k + 1)
      rwa [List.take_add_one, there] at upTo
  refine ⟨?_, agree⟩
  intro last final final'
  have here : log[log.length - 1]? = some last := by rw [← List.getLast?_eq_getElem?, final]
  have there : log'[log.length - 1]? = some last := by
    rw [sameLength, ← List.getLast?_eq_getElem?, final']
  have before := agree _ last here there
  rw [← List.dropLast_eq_take, sameLength, ← List.dropLast_eq_take] at before
  rw [← before]
  constructor
  · rintro rfl
    rfl
  · intro same
    obtain ⟨_, rfl⟩ := List.getLast?_eq_some_iff.mp final
    obtain ⟨_, rfl⟩ := List.getLast?_eq_some_iff.mp final'
    simp only [List.dropLast_concat] at same
    rw [same]

end

/-! ### A signed event edited -/

attribute [local instance] truncatingHash

/-- An event with everything but these fields fixed. -/
def sampleEvent (eventId resource : String) (signature : Option String) (previous : String) :
    AuditEvent where
  schemaVersion := 1
  eventId
  timestamp := 0
  eventType := .cryptoOperation
  action := .encrypt
  principal := ⟨"alice", "user"⟩
  resource := ⟨resource, "Key"⟩
  result := .success
  encryptionContextHash := none
  tenant := none
  project := none
  srn := none
  requestId := none
  metadata := []
  signature
  previousHash := some previous

def originalEvent : AuditEvent := sampleEvent "1" "a" (some "5a") chainGenesisHash

/-- The same signature on another resource. -/
def editedEvent : AuditEvent := sampleEvent "1" "b" (some "5a") chainGenesisHash

def followingEvent : AuditEvent :=
  sampleEvent "2" "a" (some "5b") (hexEncode (Blake3.hash (utf8 "5a")).toList)

/-- A stand-in for the JSON form of these three events. -/
abbrev shortJson : AuditJson where
  toString event := event.eventId ++ event.resource.id
  fromStr text := [originalEvent, editedEvent, followingEvent].find? fun event =>
    event.eventId ++ event.resource.id = text

abbrev acceptingVerifier : Ed25519Verify where
  verifyingKey key := key
  sign _ _ := Vector.replicate 64 0
  verifyStrict _ _ _ := true
  verify _ _ _ := true

attribute [local instance] shortJson acceptingVerifier

theorem sampleEvents_separate :
    Separate [originalEvent, followingEvent, editedEvent, followingEvent] := by
  constructor
  · intro event member event' member' same
    simp only [List.mem_cons, List.not_mem_nil, or_false] at member member'
    rcases member with rfl | rfl | rfl | rfl <;> rcases member' with rfl | rfl | rfl | rfl <;>
      first
      | rfl
      | exact absurd same (by decide +kernel)
  · decide +kernel

/-- One of the two events and the one after it. -/
def sampleLog (first : AuditEvent) : List Char :=
  Text.joinLines [(AuditJson.toString first).toList, (AuditJson.toString followingEvent).toList]

theorem verify_sampleLog {text : List Char} (read : readLog text = some [first, followingEvent])
    (starts : first.previousHash = some chainGenesisHash) (signed : first.signature = some "5a") :
    ∃ final, verify (some text) none = .ok final := by
  have link : followingEvent.previousHash = some (chainLink first) := by
    simp only [chainLink, linkPreimage, signed]
    rfl
  exact verify_ok.mpr ⟨none, rfl, _, read, ⟨starts, link, trivial⟩, fun _ _ => rfl⟩

/-- Two accepted logs with the same last event and different first events: the first
    event was edited under its old signature. -/
theorem signed_event_edited :
    Separate [originalEvent, followingEvent, editedEvent, followingEvent] ∧
    readLog (sampleLog originalEvent) = some [originalEvent, followingEvent] ∧
    readLog (sampleLog editedEvent) = some [editedEvent, followingEvent] ∧
    (∃ final, verify (some (sampleLog originalEvent)) none = .ok final) ∧
    (∃ final, verify (some (sampleLog editedEvent)) none = .ok final) ∧
    originalEvent.resource.id = "a" ∧ editedEvent.resource.id = "b" :=
  ⟨sampleEvents_separate, rfl, rfl, verify_sampleLog rfl rfl rfl, verify_sampleLog rfl rfl rfl,
    rfl, rfl⟩

/-- The original log, and the same with a blank line before it. -/
theorem tamper_evidence_blank :
    readLog (sampleLog originalEvent) = some [originalEvent, followingEvent] ∧
    readLog (Text.newline :: sampleLog originalEvent) = some [originalEvent, followingEvent] ∧
    ([originalEvent, followingEvent] = [originalEvent, followingEvent] ↔
      List.Forall₂ Pinned [originalEvent] [originalEvent]) := by
  have read : readLog (sampleLog originalEvent) = some [originalEvent, followingEvent] := rfl
  have read' : readLog (Text.newline :: sampleLog originalEvent) =
    some [originalEvent, followingEvent] := rfl
  have separate : Separate ([originalEvent, followingEvent] ++ [originalEvent, followingEvent]) :=
    sampleEvents_separate.subset (by simp)
  have evidence := tamper_evidence read read' (verify_sampleLog read rfl rfl)
    (verify_sampleLog read' rfl rfl) rfl separate
  exact ⟨read, read', evidence.1 followingEvent rfl rfl⟩

end KeyRack.Cli
