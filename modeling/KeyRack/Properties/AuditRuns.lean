import KeyRack.Lib.Schedule
import KeyRack.Properties.TamperEvidence

/-!
# Audit logs of whole runs

Tasks emit events through one chaining or signing sink, and processes follow each
other on one file. The place in the chain is taken under a lock and the line is written
after it, so the file is accepted as long as the tasks write in the order of their places,
none is left out, and no process writes to a file that holds another one's events.
-/
namespace KeyRack.Audit

open Fallible Process Trace HashChain Cli List Text AuditChain

abbrev SinkEvent : Type := Event SinkCall SinkCall.Reply

abbrev LogSystem : Type := System LogState TaskId SinkCall SinkCall.Reply (Except KeyRackError Unit)

abbrev LogLabel : Type := Label TaskId SinkCall SinkCall.Reply Unit

section
variable [AuditJson] {finish : Seal}

/-! ### Lines that are read back -/

def jsonText (event : AuditEvent) : List Char := (AuditJson.toString event).toList

/-- The event is read back from its text, which stays on one line. -/
structure Readable (event : AuditEvent) : Prop where
  back : AuditJson.fromStr (AuditJson.toString event) = some event
  line : OneLine (jsonText event)

def fileOf (log : List AuditEvent) : List Char := joinLines (log.map jsonText)

variable {log : List AuditEvent}

theorem readLines_texts (readable : ∀ event ∈ log, Readable event) :
    readLines (log.map jsonText) = some log := by
  induction log with
  | nil => rfl
  | cons event log ih =>
    obtain ⟨first, others⟩ := forall_mem_cons.mp readable
    have back : AuditJson.fromStr (String.ofList (jsonText event)) = some event := by
      rw [jsonText, String.ofList_toList, first.back]
    exact (readLines_cons first.line.visible).mpr ⟨event, log, back, ih others, rfl⟩

theorem oneLine_texts (readable : ∀ event ∈ log, Readable event) :
    ∀ text ∈ log.map jsonText, OneLine text := by
  intro _ member
  obtain ⟨event, found, rfl⟩ := mem_map.mp member
  exact (readable event found).line

theorem readLog_fileOf (readable : ∀ event ∈ log, Readable event) :
    readLog (fileOf log) = some log := by
  have split := lines_joinLines (oneLine_texts readable) []
  rw [append_nil] at split
  rw [readLog, fileOf, split, lines, append_nil, readLines_texts readable]

variable {event : AuditEvent}

/-- The last line counts without its end, too. -/
theorem readLog_unended (readable : ∀ e ∈ log ++ [event], Readable e) :
    readLog (fileOf log ++ jsonText event) = some (log ++ [event]) := by
  have all := oneLine_texts fun e found => readable e (mem_append_left [event] found)
  have last := (readable event (by simp)).line
  have whole := readLines_texts readable
  rw [map_append, map_singleton] at whole
  rw [readLog, fileOf, lines_joinLines all,
    lines_unended last.ne_nil last.newline last.carriageReturn, whole]

/-- What the lines of a log are written in. -/
def pieces (log : List AuditEvent) : List (List Char) :=
  log.flatMap fun event => [jsonText event, [newline]]

theorem flatten_pieces (log : List AuditEvent) : (pieces log).flatten = fileOf log := by
  simp [pieces, fileOf, joinLines, flatMap_map, flatten_eq_flatMap, flatMap_assoc]

/-! ### The calls of one emit -/

/-- What a task asks for next after its own events so far. -/
inductive NextCall (finish : Seal) : List SinkEvent → SinkCall → Prop where
  | link (event : AuditEvent) : NextCall finish [] (.link finish event)
  | openAppend (event linked : AuditEvent) :
      NextCall finish [⟨.link finish event, linked⟩] .openAppend
  | json (event linked : AuditEvent) :
      NextCall finish [⟨.link finish event, linked⟩, ⟨.openAppend, .ok ()⟩]
        (.writeAll (jsonText linked))
  | newline (event linked : AuditEvent) :
      NextCall finish [⟨.link finish event, linked⟩, ⟨.openAppend, .ok ()⟩,
        ⟨.writeAll (jsonText linked), .ok ()⟩] (.writeAll [newline])

theorem link_first (next : NextCall finish before (.link f event)) : f = finish ∧ before = [] := by
  cases next
  exact ⟨rfl, rfl⟩

theorem obeys_orOther_then
    (rest : reply = .ok () → Obeys (NextCall finish) (fun _ _ => True) past (f ()).run) :
    Obeys (NextCall finish) (fun _ _ => True) past (orOther reply >>= f).run := by
  apply obeys_check_then (fun _ _ => trivial)
  intro u passed
  exact rest (mapErr_eq_ok.mp passed)

theorem emitThrough_obeys (event : AuditEvent) :
    Obeys (NextCall finish) (fun _ _ => True) [] (emitThrough finish event).run := by
  apply obeys_observe_then (.link event)
  intro linked
  apply obeys_observe_then (.openAppend event linked)
  intro _
  apply obeys_orOther_then
  rintro rfl
  apply obeys_observe_then (.json event linked)
  intro _
  apply obeys_orOther_then
  rintro rfl
  apply obeys_observe_then (.newline event linked)
  intro _
  exact obeys_check.mpr trivial

/-! ### Order of places and writes -/

/-- The places after one more step; a restart begins a new chain. -/
def takePlace (log : List (TaskId × AuditEvent)) : LogLabel → List (TaskId × AuditEvent)
  | .called i ⟨.link _ _, linked⟩ => log ++ [(i, linked)]
  | .environment _ => []
  | _ => log

/-- The tasks that took their place in the chain of the running process, with its events. -/
def places (past : List LogLabel) : List (TaskId × AuditEvent) := past.foldl takePlace []

/-- The text that a call wrote to the file. -/
def writtenBy : SinkEvent → Option (List Char)
  | ⟨.writeAll text, .ok ()⟩ => some text
  | _ => none

def wrote : LogLabel → Option (TaskId × List Char)
  | .called i event => (writtenBy event).map (i, ·)
  | _ => none

/-- The tasks that wrote to the file, with their texts. -/
def writes (past : List LogLabel) : List (TaskId × List Char) := past.filterMap wrote

/-- The tasks have written in the order of their places in the chain of one process,
    each of them its event and then the end of the line. -/
def Orderly (labels : List LogLabel) : Prop :=
  ∃ past ∈ labels.inits,
    (writes labels).map Prod.fst <+: (places past).flatMap fun place => [place.1, place.1]

variable {past labels : List LogLabel}

omit [AuditJson] in
theorem places_concat (past : List LogLabel) (label : LogLabel) :
    places (past ++ [label]) = takePlace (places past) label :=
  foldl_concat takePlace [] label past

omit [AuditJson] in
theorem writes_concat (past : List LogLabel) (label : LogLabel) :
    writes (past ++ [label]) = writes past ++ (wrote label).toList := by
  rw [writes, filterMap_append, ← writes]
  cases text : wrote label <;> simp [text]

omit [AuditJson] in
theorem writes_of_task (i : TaskId) (past : List LogLabel) :
    ((writes past).filter (·.1 = i)).map Prod.snd = (own i past).filterMap writtenBy := by
  induction past using List.reverseRecOn with
  | nil => rfl
  | append_singleton past label ih =>
    rw [writes_concat, own_append, filter_append, map_append, filterMap_append, ih]
    congr 1
    cases label with
    | called j event =>
      by_cases same : j = i
      · rw [same, own_called_self]
        cases written : writtenBy event <;> simp [wrote, written]
      · rw [own_called_ne same]
        cases written : writtenBy event <;> simp [wrote, written, same]
    | started | dropped | environment => rfl

/-- What a task has written is the beginning of the line of its event. -/
def Told (finish : Seal) (own : List SinkEvent) : Prop :=
  ∀ event linked, ⟨.link finish event, linked⟩ ∈ own →
    own.filterMap writtenBy <+: [jsonText linked, [newline]]

theorem NextCall.told (next : NextCall finish before c) (r : c.Reply) :
    Told finish (before ++ [⟨c, r⟩]) := by
  intro event linked found
  cases next with
  | link | openAppend => exact nil_prefix
  | json =>
    obtain ⟨-, rfl⟩ : _ ∧ linked = _ := by simpa using found
    cases r with
    | error => exact nil_prefix
    | ok => exact ⟨[[Text.newline]], rfl⟩
  | newline =>
    obtain ⟨-, rfl⟩ : _ ∧ linked = _ := by simpa using found
    cases r with
    | error => exact ⟨[[Text.newline]], rfl⟩
    | ok => exact prefix_refl _

theorem told_step (permitted : label.Allowed (NextCall finish) past)
    (told : ∀ i, Told finish (own i past)) (i : TaskId) :
    Told finish (own i (past ++ [label])) := by
  rw [own_append]
  cases label with
  | called j event =>
    by_cases same : j = i
    · subst same
      rw [own_called_self]
      exact NextCall.told permitted event.2
    · rw [own_called_ne same, append_nil]
      exact told i
  | started | dropped | environment => exact (append_nil (own i past)).symm ▸ told i

/-- Tasks that write in the order of their places write the lines in the order of the chain. -/
theorem writes_begin {log : List (TaskId × AuditEvent)} {done : List (TaskId × List Char)}
    (order : done.map Prod.fst <+: log.flatMap fun place => [place.1, place.1])
    (once : (log.map Prod.fst).Nodup)
    (lines : ∀ place ∈ log, (done.filter (·.1 = place.1)).map Prod.snd <+:
      [jsonText place.2, [newline]]) :
    done.map Prod.snd <+: pieces (log.map Prod.snd) := by
  induction log generalizing done with
  | nil =>
    rw [map_eq_nil_iff.mp (prefix_nil.mp order)]
    exact nil_prefix
  | cons place log ih =>
    obtain ⟨fresh, once⟩ := nodup_cons.mp once
    obtain ⟨line, lines⟩ := forall_mem_cons.mp lines
    -- the first task has written nothing, its event, or its line before all others
    rcases done with - | ⟨⟨i, text⟩, - | ⟨⟨j, ending⟩, rest⟩⟩
    · exact nil_prefix
    · obtain ⟨rfl, -⟩ := cons_prefix_cons.mp order
      simp only [filter_cons, decide_true, if_true, map_cons, cons_prefix_cons] at line
      exact cons_prefix_cons.mpr ⟨line.1, nil_prefix⟩
    · simp only [map_cons, flatMap_cons, cons_append, nil_append, cons_prefix_cons] at order
      obtain ⟨rfl, rfl, order⟩ := order
      have others := ih order once fun other member => by
        have apart : place.1 ≠ other.1 := fun same => fresh (same ▸ mem_map_of_mem member)
        have own := lines other member
        rwa [filter_cons_of_neg (by simpa using apart),
          filter_cons_of_neg (by simpa using apart)] at own
      simp only [filter_cons, decide_true, if_true, map_cons, cons_prefix_cons] at line
      exact cons_prefix_cons.mpr ⟨line.1, cons_prefix_cons.mpr ⟨line.2.1, others⟩⟩

/-! ### Sealed events -/

variable [Blake3] [Ed25519Verify]

/-- The key file to verify with: the signing key of the sink. -/
def keyFile : Seal → Option (Option Bytes)
  | .unsigned => none
  | .signed key => some (some key.toList)

def verifierOf : Seal → Option VerifyingKey
  | .unsigned => none
  | .signed key => some (Ed25519.verifyingKey key)

omit [AuditJson] [Blake3] in
theorem loaded_keyFile (finish : Seal) :
    (keyFile finish).mapM loadVerifyingKey = .ok (verifierOf finish) := by
  cases finish with
  | unsigned => rfl
  | signed key =>
    have length : key.toList.length = 32 := by simp
    have seed : (⟨key.toList.toArray, by simp⟩ : SigningKey) = key := by
      simp [Vector.toList]
    simp only [keyFile, Option.mapM_some, loadVerifyingKey, okOr, bind, Except.bind, length,
      dite_true, pure, Except.pure, seed, verifierOf, Functor.map, Except.map]

/-- Verification accepts what was signed. -/
def Genuine : Prop := ∀ (key : SigningKey) (message : Bytes),
  Ed25519Verify.verify (Ed25519.verifyingKey key) message (Ed25519.sign key message) = true

theorem signatureOk_link (genuine : Genuine) (head : String) (finish : Seal) (event : AuditEvent) :
    signatureOk (verifierOf finish) (link head finish event).1 = .ok true := by
  cases finish with
  | unsigned => rfl
  | signed key =>
    simp only [signatureOk, verifierOf, link, Seal.apply, AuditSigner.verifyEvent,
      hexDecode_hexEncode, bind, Except.bind, signatureFromSlice_toList]
    rw [genuine key]
    rfl

theorem previousHash_link (head : String) (finish : Seal) (event : AuditEvent) :
    (link head finish event).1.previousHash = some head := by
  cases finish <;> rfl

/-- A sound log with the next event of its chain. -/
theorem sound_link (genuine : Genuine) (sound : Sound (verifierOf finish) chainGenesisHash log) :
    Sound (verifierOf finish) chainGenesisHash
      (log ++ [(link (tip chainLink chainGenesisHash log) finish event).1]) := by
  constructor
  · exact linked_concat.mpr ⟨sound.1, previousHash_link _ finish event⟩
  · intro e member
    rcases mem_concat.mp member with old | rfl
    · exact sound.2 e old
    · exact signatureOk_link genuine _ finish event

/-- The first lines of a sound log are accepted, and so is a last one without its end. -/
theorem accepted_pieces {texts : List (List Char)}
    (sound : Sound (verifierOf finish) chainGenesisHash log)
    (readable : ∀ event ∈ log, Readable event) (first : texts <+: pieces log) :
    ∃ final, verify (some texts.flatten) (keyFile finish) = .ok final := by
  -- what is written ends in the last line or before it
  induction log using List.reverseRecOn with
  | nil =>
    rw [prefix_nil.mp first]
    exact verify_ok.mpr ⟨_, loaded_keyFile finish, [], rfl, sound⟩
  | append_singleton log event ih =>
    have earlier : Sound (verifierOf finish) chainGenesisHash log :=
      ⟨(linked_concat.mp sound.1).1, fun e member => sound.2 e (mem_append_left _ member)⟩
    have split : pieces (log ++ [event]) = pieces log ++ [jsonText event] ++ [[newline]] := by
      simp [pieces]
    rw [split, prefix_concat_iff, prefix_concat_iff, ← split] at first
    rcases first with rfl | rfl | before
    · rw [flatten_pieces]
      exact verify_ok.mpr ⟨_, loaded_keyFile finish, _, readLog_fileOf readable, sound⟩
    · rw [flatten_append, flatten_pieces, flatten_singleton]
      exact verify_ok.mpr ⟨_, loaded_keyFile finish, _, readLog_unended readable, sound⟩
    · exact ih earlier (fun e member => readable e (mem_append_left _ member)) before

/-! ### Runs -/

variable {s t : LogSystem}

/-- A sound log of events that different tasks linked. -/
structure Chained (finish : Seal) (past : List LogLabel) (log : List (TaskId × AuditEvent)) :
    Prop where
  sound : Sound (verifierOf finish) chainGenesisHash (log.map Prod.snd)
  once : (log.map Prod.fst).Nodup
  linked : ∀ place ∈ log, ∃ event, .called place.1 ⟨.link finish event, place.2⟩ ∈ past

theorem chained_nil : Chained finish past [] :=
  ⟨⟨trivial, fun _ member => nomatch member⟩, .nil, fun _ member => nomatch member⟩

theorem Chained.extend (chained : Chained finish past chain) (more : List LogLabel) :
    Chained finish (past ++ more) chain := by
  refine ⟨chained.sound, chained.once, fun place member => ?_⟩
  obtain ⟨event, found⟩ := chained.linked place member
  exact ⟨event, mem_append_left _ found⟩

/-- The chain of the running process and the file, as the labels tell. -/
structure Kept (finish : Seal) (past : List LogLabel) (w : LogState) : Prop where
  chained : Chained finish past (places past)
  head : w.head = tip chainLink chainGenesisHash ((places past).map Prod.snd)
  file : w.file = ((writes past).map Prod.snd).flatten

theorem chained_link (genuine : Genuine) (chained : Chained finish past (places past))
    (fresh : own i past = []) :
    let linked := (link (tip chainLink chainGenesisHash ((places past).map Prod.snd)) finish
      event).1
    Chained finish (past ++ [.called i ⟨.link finish event, linked⟩])
      (places past ++ [(i, linked)]) := by
  intro linked
  constructor
  · rw [map_append, map_singleton]
    exact sound_link genuine chained.sound
  · rw [map_append, map_singleton]
    refine nodup_append.mpr ⟨chained.once, nodup_singleton i, ?_⟩
    rintro _ member _ last rfl
    obtain rfl := mem_singleton.mp last
    obtain ⟨place, found, rfl⟩ := mem_map.mp member
    obtain ⟨_, called⟩ := chained.linked place found
    rw [← mem_own, fresh] at called
    cases called
  · intro place member
    rcases mem_concat.mp member with old | rfl
    · exact (chained.extend _).linked place old
    · exact ⟨event, mem_concat_self⟩

/-- A step that leaves the chain alone. -/
theorem Kept.concat (kept : Kept finish past w)
    (chain : takePlace (places past) label = places past) (head : w'.head = w.head)
    (file : w'.file = w.file ++ ((wrote label).toList.map Prod.snd).flatten) :
    Kept finish (past ++ [label]) w' := by
  constructor
  · rw [places_concat, chain]
    exact kept.chained.extend [label]
  · rw [places_concat, chain, head, kept.head]
  · rw [writes_concat, map_append, flatten_append, file, kept.file]

theorem kept_step (genuine : Genuine) (step : Step (logRules finish) s label t)
    (permitted : label.Allowed (NextCall finish) past) (kept : Kept finish past s.world) :
    Kept finish (past ++ [label]) t.world := by
  cases step with
  | start => exact kept.concat rfl rfl (append_nil _).symm
  | drop _ _ _ _ _ left => exact left.elim
  | environment _ _ changed =>
    obtain ⟨⟩ := changed
    refine ⟨?_, ?_, ?_⟩
    · rw [places_concat]
      exact chained_nil
    · rw [places_concat]
      rfl
    · rw [writes_concat]
      exact (append_nil (writes past)).symm ▸ kept.file
  | call _ _ _ _ _ _ answered =>
    cases answered with
    | link _ _ event =>
      obtain ⟨rfl, fresh⟩ := link_first permitted
      refine ⟨?_, ?_, ?_⟩
      · rw [places_concat, kept.head]
        exact chained_link genuine kept.chained fresh
      · rw [places_concat, takePlace, map_append, map_singleton, tip_concat]
        rfl
      · rw [writes_concat]
        exact (append_nil (writes past)).symm ▸ kept.file
    | opened | openFailed | writeFailed => exact kept.concat rfl rfl (append_nil _).symm
    | written _ text =>
      refine kept.concat rfl rfl ?_
      exact congrArg (s.world.file ++ ·) (append_nil text).symm

theorem kept_of_steps (genuine : Genuine)
    (steps : Steps (Step (logRules finish)) ⟨.start, fun _ => .idle⟩ labels t) :
    Kept finish labels t.world ∧ ∀ i, Told finish (own i labels) := by
  have every : ∀ p, (logRules finish).starts p →
      Obeys (NextCall finish) (fun _ _ => True) [] p := by
    rintro p ⟨event, rfl⟩
    exact emitThrough_obeys event
  have start : Kept finish [] .start ∧ ∀ i : TaskId, Told finish (own (η := Unit) i []) :=
    ⟨⟨chained_nil, rfl, rfl⟩, fun _ _ _ found => nomatch found⟩
  refine (steps_guided (P := fun past s =>
    Kept finish past s.world ∧ ∀ i, Told finish (own i past)) every ?_ steps (fun _ => rfl) start).2
  rintro past s label t step permitted - ⟨kept, told⟩
  exact ⟨kept_step genuine step permitted kept, told_step permitted told⟩

/-- In every run of any number of processes and tasks that write in the order of their
    places, the file is accepted in the state that is reached. -/
theorem orderly_log_accepted (genuine : Genuine)
    (steps : Steps (Step (logRules finish)) ⟨.start, fun _ => .idle⟩ labels t)
    (orderly : Orderly labels)
    (readable : ∀ i event linked, .called i ⟨.link finish event, linked⟩ ∈ labels →
      Readable linked) :
    ∃ final, verify (some t.world.file) (keyFile finish) = .ok final := by
  obtain ⟨past, early, order⟩ := orderly
  obtain ⟨later, rfl⟩ := (mem_inits past labels).mp early
  obtain ⟨_, first, -⟩ := steps.split
  have chained := (kept_of_steps genuine first).1.chained
  obtain ⟨kept, told⟩ := kept_of_steps genuine steps
  have linked : ∀ place ∈ places past, ∃ event,
      .called place.1 ⟨.link finish event, place.2⟩ ∈ past ++ later := (chained.extend later).linked
  have begun := writes_begin order chained.once (by
    intro place member
    obtain ⟨event, called⟩ := linked place member
    rw [writes_of_task]
    exact told place.1 event place.2 (mem_own.mpr called))
  rw [kept.file]
  refine accepted_pieces chained.sound ?_ begun
  intro e member
  obtain ⟨place, found, rfl⟩ := mem_map.mp member
  obtain ⟨event, called⟩ := linked place found
  exact readable place.1 event place.2 called

end

/-! ### Runs on a schedule -/

section
variable [Blake3] [AuditJson] [Ed25519]

def LogState.answer (w : LogState) (task : Nat) : Bool → (c : SinkCall) →
    {x : c.Reply × LogState // LogAnswers w (w.process, task) c x.1 x.2}
  | _, .link finish event => ⟨(_, _), .link w task finish event⟩
  | true, .openAppend => ⟨(_, _), .opened w task⟩
  | false, .openAppend => ⟨(_, _), .openFailed w task "I/O error"⟩
  | true, .writeAll text => ⟨(_, _), .written w task text⟩
  | false, .writeAll text => ⟨(_, _), .writeFailed w task text "I/O error"⟩

/-- A schedule names the event of an emit, and says whether a call on the file succeeds. -/
def logPlayer (finish : Seal) : Player (logRules finish) AuditEvent Bool where
  program event := (emitThrough finish event).run
  starts event := ⟨event, rfl⟩
  answer w i succeeds c :=
    if running : (w.process, i.2) = i then some (running ▸ w.answer i.2 succeeds c) else none
  environment w _ := some ⟨_, .restart w⟩

abbrev LogMove : Type := Move TaskId AuditEvent Bool Unit

end

section
attribute [local instance] truncatingHash acceptingVerifier

/-- A stand-in for the JSON form of events that differ in two fields only. -/
abbrev twoFieldJson : AuditJson where
  toString event := event.eventId ++ ":" ++ event.previousHash.getD ""
  fromStr text := (splitOnce ':' text.toList).map fun fields =>
    sampleEvent (String.ofList fields.1) "a" none (String.ofList fields.2)

attribute [local instance] twoFieldJson

def firstEvent : AuditEvent := sampleEvent "1" "a" none ""

def secondEvent : AuditEvent := sampleEvent "2" "a" none ""

/-- All calls of one emit, which succeed. -/
def wholeEmit (i : TaskId) (event : AuditEvent) : List LogMove :=
  .start i event :: List.replicate 4 (.advance i true)

def firstLinked : AuditEvent := (link chainGenesisHash .unsigned firstEvent).1

def secondLinked : AuditEvent := (link (chainLink firstLinked) .unsigned secondEvent).1

/-- Two emits at the same time: both take their places before either of them writes. -/
theorem orderly_log_accepted_overlapped : ∃ labels t,
    Steps (Step (logRules .unsigned)) ⟨.start, fun _ => .idle⟩ labels t ∧ Orderly labels ∧
    (places labels).map Prod.fst = [(0, 0), (0, 1)] ∧
    ∃ final, verify (some t.world.file) (keyFile .unsigned) = .ok final := by
  have steps : Steps (Step (logRules .unsigned)) ⟨.start, fun _ => .idle⟩ _ _ :=
    .cons (.start _ (0, 0) _ rfl ⟨firstEvent, rfl⟩)
    (.cons (.start _ (0, 1) _ rfl ⟨secondEvent, rfl⟩)
    (.cons (.call _ (0, 0) _ _ _ _ rfl (.link _ 0 .unsigned firstEvent))
    (.cons (.call _ (0, 1) _ _ _ _ rfl (.link _ 1 .unsigned secondEvent))
    (.cons (.call _ (0, 0) _ _ _ _ rfl (.opened _ 0))
    (.cons (.call _ (0, 0) _ _ _ _ rfl (.written _ 0 (jsonText firstLinked)))
    (.cons (.call _ (0, 0) _ _ _ _ rfl (.written _ 0 [newline]))
    (.cons (.call _ (0, 1) _ _ _ _ rfl (.opened _ 1))
    (.cons (.call _ (0, 1) _ _ _ _ rfl (.written _ 1 (jsonText secondLinked)))
    (.cons (.call _ (0, 1) _ _ _ _ rfl (.written _ 1 [newline])) (.nil _))))))))))
  have whole : ∀ labels : List LogLabel, labels ∈ labels.inits := fun labels =>
    (mem_inits labels labels).mpr (prefix_refl labels)
  refine ⟨_, _, steps, ⟨_, whole _, prefix_refl _⟩, rfl,
    orderly_log_accepted (fun _ _ => rfl) steps ⟨_, whole _, prefix_refl _⟩ ?_⟩
  intro i event linked member
  have linked : linked = firstLinked ∨ linked = secondLinked := by
    simp at member
    tauto
  rcases linked with rfl | rfl <;>
    exact ⟨rfl, by decide +kernel, by decide +kernel, by decide +kernel⟩

/-! ### Logs that are not accepted -/

open Move in
/-- The second task takes its place after the first and writes its line before it. -/
def overtaken : List LogMove :=
  [start (0, 0) firstEvent, advance (0, 0) true] ++ wholeEmit (0, 1) secondEvent ++
    replicate 3 (advance (0, 0) true)

open Move in
/-- The first emit fails to open the file. -/
def failedEmit : List LogMove :=
  [start (0, 0) firstEvent, advance (0, 0) true, advance (0, 0) false] ++
    wholeEmit (0, 1) secondEvent

/-- One emit in each of two processes. -/
def restarted : List LogMove :=
  wholeEmit (0, 0) firstEvent ++ [Move.environment ()] ++ wholeEmit (1, 0) secondEvent

/-- The schedule makes a run after which the file is refused with this error. -/
def Leaves (moves : List LogMove) (cause : VerifyError) : Prop :=
  ∃ labels t, ∃ steps : Steps (Step (logRules .unsigned)) ⟨.start, fun _ => .idle⟩ labels t,
    (logPlayer .unsigned).plays ⟨.start, fun _ => .idle⟩ moves = some ⟨(labels, t), steps⟩ ∧
    verify (some t.world.file) (keyFile .unsigned) = .error cause

/-- An overtaken write breaks the chain at both events; after a failed emit and after a
    restart the next event does not name the one before it. -/
theorem disordered_logs_refused : Leaves overtaken (.failed 2) ∧ Leaves failedEmit (.failed 1) ∧
    Leaves restarted (.failed 1) := by
  refine ⟨⟨_, _, _, rfl, ?_⟩, ⟨_, _, _, rfl, ?_⟩, ⟨_, _, _, rfl, ?_⟩⟩ <;> rfl

end

end KeyRack.Audit
