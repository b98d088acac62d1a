import KeyRack.Worker.Delivery

/-!
# The books of the transport

Every operation of the transport moves its books in one of few ways: it leaves the
outcomes alone, admits a new delivery, suppresses pending ones or settles one. What
holds of the books in every run is read off these moves, and a capsule goes out only
in the move that settles its delivery.
-/
namespace KeyRack.Worker

open Assoc Encoding Fallible Process Stateful List FiniteMap

/-! ### The books -/

/-- The phase of a delivery. -/
def State.phase? (s : State) (id : Nat) : Option Phase := (s.outcomes.lookup id).map (·.phase)

structure State.Sound (s : State) : Prop where
  held : ∀ id, id ∈ s.permits ↔ s.phase? id = some .pending
  known : ∀ id, id ∈ s.outcomes → id ≤ s.next
  latched : s.faulted = true → s.policy.closed = true

/-- What no operation undoes. -/
structure Moves (s t : State) : Prop where
  known : ∀ id, id ∈ s.outcomes → id ∈ t.outcomes
  terminal : ∀ id o, s.outcomes.lookup id = some o → o.phase ≠ .pending →
    t.outcomes.lookup id = some o
  closed : s.policy.closed = true → t.policy.closed = true

/-- An operation keeps the books in order. -/
structure Keeps (s t : State) : Prop where
  sound : t.Sound
  moves : Moves s t

/-- An operation that admits and commits nothing. -/
structure Idles (s t : State) : Prop extends Keeps s t where
  ids : ∀ id, id ∈ t.outcomes → id ∈ s.outcomes
  uncommitted : ∀ id o, t.outcomes.lookup id = some o → o.phase = .committed →
    s.outcomes.lookup id = some o

theorem Moves.refl (s : State) : Moves s s :=
  ⟨fun _ member => member, fun _ _ stored _ => stored, id⟩

variable {s t : State}

theorem Moves.trans (first : Moves s t) (second : Moves t u) : Moves s u where
  known id member := second.known id (first.known id member)
  terminal id o stored ended := second.terminal id o (first.terminal id o stored ended) ended
  closed shut := second.closed (first.closed shut)

theorem Keeps.trans (first : Keeps s t) (second : Keeps t u) : Keeps s u :=
  ⟨second.sound, first.moves.trans second.moves⟩

theorem Idles.refl (sound : s.Sound) : Idles s s where
  sound := sound
  moves := .refl s
  ids _ member := member
  uncommitted _ _ stored _ := stored

theorem Idles.trans (first : Idles s t) (second : t.Sound → Idles t u) :
    Idles s u where
  toKeeps := first.toKeeps.trans (second first.sound).toKeeps
  ids id member := first.ids id ((second first.sound).ids id member)
  uncommitted id o stored committed :=
    first.uncommitted id o ((second first.sound).uncommitted id o stored committed) committed

variable {id : Nat}

theorem State.phase?_eq_some :
    s.phase? id = some phase ↔ ∃ o, s.outcomes.lookup id = some o ∧ o.phase = phase := by
  simp [phase?]

theorem Outcome.suppress_suppress (o : Outcome) : o.suppress.suppress = o.suppress := by
  unfold suppress
  split
  next => simp
  next => rfl

variable {o : Outcome}

theorem Outcome.suppress_of_ended (ended : o.phase ≠ .pending) : o.suppress = o := if_neg ended

theorem Outcome.suppress_phase (o : Outcome) : o.suppress.phase ≠ .pending := by
  unfold suppress
  split
  next => simp
  next ended => exact ended

theorem Outcome.suppress_committed (committed : o.suppress.phase = .committed) :
    o.suppress = o := by
  unfold suppress at committed ⊢
  split
  next pending => simp [pending] at committed
  next => rfl

section
variable (sound : s.Sound)
include sound

/-- Some deliveries are suppressed, and their permits withdrawn. -/
theorem Idles.suppressing (gone : Nat → Prop) [DecidablePred gone]
    (permits : ∀ id, id ∈ t.permits ↔ ¬gone id ∧ id ∈ s.permits)
    (outcomes : ∀ id, t.outcomes.lookup id =
      if gone id then (s.outcomes.lookup id).map Outcome.suppress else s.outcomes.lookup id)
    (next : s.next ≤ t.next) (closed : s.policy.closed = true → t.policy.closed = true)
    (latched : t.faulted = true → t.policy.closed = true) : Idles s t := by
  -- an outcome is that of before, or the suppressed form of it
  have before (id : Nat) (o : Outcome) (stored : t.outcomes.lookup id = some o) :
      ∃ o', s.outcomes.lookup id = some o' ∧ (o = o' ∨ o = o'.suppress) := by
    rw [outcomes] at stored
    split at stored
    next =>
      obtain ⟨o', found, rfl⟩ := Option.map_eq_some_iff.mp stored
      exact ⟨o', found, .inr rfl⟩
    next => exact ⟨o, stored, .inl rfl⟩
  have ids (id : Nat) (member : id ∈ t.outcomes) : id ∈ s.outcomes := by
    obtain ⟨o, stored⟩ := mem_iff.mp member
    obtain ⟨o', found, _⟩ := before id o stored
    exact mem_iff.mpr ⟨o', found⟩
  have booked : t.Sound := by
    constructor
    · intro id
      rw [permits, sound.held, State.phase?, State.phase?, outcomes]
      by_cases suppressed : gone id
      · cases s.outcomes.lookup id with
        | none => simp [suppressed]
        | some o => simp [suppressed, o.suppress_phase]
      · simp [suppressed]
    · intro id member
      exact (sound.known id (ids id member)).trans next
    · exact latched
  refine ⟨⟨booked, ?_, ?_, closed⟩, ids, ?_⟩
  · intro id member
    obtain ⟨o, stored⟩ := mem_iff.mp member
    rw [mem_iff, outcomes, stored]
    split
    next => exact ⟨o.suppress, rfl⟩
    next => exact ⟨o, rfl⟩
  · intro id o stored ended
    rw [outcomes, stored, Option.map_some, Outcome.suppress_of_ended ended, ite_self]
  · intro id o stored committed
    obtain ⟨_, found, rfl | rfl⟩ := before id o stored
    · exact found
    · rw [Outcome.suppress_committed committed]
      exact found

/-- Nothing is booked. -/
theorem Idles.aside (permits : t.permits = s.permits)
    (outcomes : ∀ id, t.outcomes.lookup id = s.outcomes.lookup id) (next : s.next ≤ t.next)
    (closed : s.policy.closed = true → t.policy.closed = true)
    (latched : t.faulted = true → t.policy.closed = true) : Idles s t :=
  .suppressing sound (fun _ => False) (by simp [permits]) (by simp [outcomes]) next closed latched

theorem State.Sound.suppress (id : Nat) : Idles s (s.suppress id) := by
  refine .suppressing sound (· = id) ?_ ?_ le_rfl (fun closed => closed) sound.latched
  · intro other
    rw [State.suppress, AList.mem_erase]
  · intro _
    rw [State.suppress, lookup_adjust]
    split
    next same => rw [same]
    next => rfl

theorem State.Sound.suppressPending : Idles s s.suppressPending := by
  refine .suppressing sound (· ∈ s.permits) ?_ ?_ le_rfl id sound.latched
  · intro other
    simp [State.suppressPending, AList.notMem_empty]
  · intro _
    rw [State.suppressPending, lookup_adjustAll Outcome.suppress_suppress]
    simp only [AList.mem_keys]

/-- A stopped policy suppresses what is pending, and the queue is dropped. -/
theorem State.Sound.shut (faulted : Bool) :
    Idles s { ({ s with faulted, policy := s.policy.stop }).suppressPending with queue := [] } := by
  have stopped : Idles s { s with faulted, policy := s.policy.stop } :=
    .aside sound rfl (fun _ => rfl) le_rfl (fun _ => rfl) fun _ => rfl
  apply (stopped.trans State.Sound.suppressPending).trans
  intro sound
  exact .aside sound rfl (fun _ => rfl) le_rfl id sound.latched

theorem State.Sound.stop : Idles s s.stop := sound.shut s.faulted

theorem State.Sound.failTransport : Idles s s.failTransport := sound.shut true

end

theorem Policy.closed_fence (policy : Policy) : (policy.fence true).2.closed = true := by
  simp [Policy.fence, Policy.closed]

theorem State.Sound.fence (sound : s.Sound) : Idles s s.fence := by
  have fenced : Idles s { s with policy := (s.policy.fence true).2 } :=
    .aside sound rfl (fun _ => rfl) le_rfl (fun _ => s.policy.closed_fence)
      fun _ => s.policy.closed_fence
  exact fenced.trans State.Sound.suppressPending

/-- Deliveries that are no longer allowed are suppressed one after the other. -/
theorem State.Sound.expire (sound : s.Sound) (expired : s.expire now = some t) : Idles s t := by
  simp only [State.expire, Option.bind_eq_bind, Option.bind_eq_some_iff, Option.pure_def,
    Option.some.injEq] at expired
  obtain ⟨verdicts, _, rfl⟩ := expired
  generalize (verdicts.filter fun verdict => !verdict.2).map (·.1) = ids
  clear * - sound
  induction ids generalizing s with
  | nil => exact .refl sound
  | cons id _ ih => exact (sound.suppress id).trans ih

/-- Each permit has its outcome, so that no expiry panics. -/
theorem State.Sound.expire_returns (sound : s.Sound) (now : Nat → Nat) :
    ∃ t, s.expire now = some t := by
  have found (id : Nat) (member : id ∈ s.permits.keys) : ∃ o, s.outcomes.lookup id = some o := by
    obtain ⟨o, stored, _⟩ := State.phase?_eq_some.mp ((sound.held id).mp member)
    exact ⟨o, stored⟩
  have judged (ids : List Nat) (known : ∀ id ∈ ids, ∃ o, s.outcomes.lookup id = some o) :
      ∃ verdicts, (ids.mapM fun id => do
        let outcome ← s.outcomes.lookup id
        return (id, s.allowed outcome.authority (now id))) = some verdicts := by
    induction ids with
    | nil => exact ⟨[], rfl⟩
    | cons id _ ih =>
      obtain ⟨o, stored⟩ := known id mem_cons_self
      obtain ⟨_, rest⟩ := ih fun other member => known other (mem_cons_of_mem _ member)
      rw [mapM_cons, rest, stored]
      exact ⟨_, rfl⟩
  obtain ⟨_, ran⟩ := judged _ found
  rw [State.expire, ran]
  exact ⟨_, rfl⟩

/-- A pending delivery comes to its end. -/
def State.settle (s : State) (id : Nat) (o : Outcome) (phase : Phase) : State :=
  { s with
    outcomes := s.outcomes.insert id { o with phase }
    permits := s.permits.erase id }

section
variable {s : State} {id : Nat} {o : Outcome}

theorem State.settle_ids (stored : s.outcomes.lookup id = some o) (other : Nat)
    (member : other ∈ (s.settle id o phase).outcomes) : other ∈ s.outcomes := by
  rw [State.settle, AList.mem_insert] at member
  rcases member with rfl | member
  · exact mem_iff.mpr ⟨o, stored⟩
  · exact member

theorem State.Sound.settle (sound : s.Sound) (stored : s.outcomes.lookup id = some o)
    (pending : o.phase = .pending) (ended : phase ≠ .pending) : Keeps s (s.settle id o phase) := by
  constructor
  · constructor
    · intro other
      rw [State.settle, State.phase?, AList.mem_erase, lookup_insert_apply, sound.held]
      by_cases same : other = id
      · simp [same, ended]
      · simp [same, State.phase?]
    · intro other member
      exact sound.known other (State.settle_ids stored other member)
    · exact sound.latched
  · constructor
    · intro other member
      exact (AList.mem_insert _).mpr (.inr member)
    · intro _ _ stored' ended'
      rw [State.settle, lookup_insert_apply]
      split
      next same =>
        rw [same, stored] at stored'
        cases stored'
        exact absurd pending ended'
      next => exact stored'
    · exact fun closed => closed

end

/-- A new delivery is admitted. -/
structure Booked (s t : State) (id : Nat) : Prop where
  new : s.next < id
  next : t.next = id
  outcomes : ∃ a, t.outcomes = s.outcomes.insert id ⟨a, .pending⟩
  permits : ∃ key, t.permits = s.permits.insert id key
  closed : s.policy.closed = true → t.policy.closed = true
  faulted : t.faulted = s.faulted

theorem Booked.keeps (booked : Booked s t id) (sound : s.Sound) : Keeps s t := by
  obtain ⟨a, outcomes⟩ := booked.outcomes
  obtain ⟨_, permits⟩ := booked.permits
  have new := booked.new
  have next := booked.next
  constructor
  · constructor
    · intro other
      rw [permits, State.phase?, outcomes, AList.mem_insert, lookup_insert_apply, sound.held]
      by_cases same : other = id
      · simp [same]
      · simp [same, State.phase?]
    · intro other member
      rw [outcomes, AList.mem_insert] at member
      rcases member with rfl | member
      · exact next.ge
      · have below := sound.known other member
        omega
    · rw [booked.faulted]
      exact fun faulted => booked.closed (sound.latched faulted)
  · constructor
    · intro other member
      rw [outcomes]
      exact (AList.mem_insert _).mpr (.inr member)
    · intro other o stored _
      have below := sound.known other (mem_iff.mpr ⟨o, stored⟩)
      rw [outcomes, lookup_insert_apply, if_neg (by omega)]
      exact stored
    · exact booked.closed

variable {policy : Policy} {now : Nat}

theorem Policy.admits_closed (closed : policy.closed = true) :
    (policy.admits w now).2.closed = true := by
  unfold admits
  split
  next => exact closed
  next => exact closed

theorem enqueue_cases (sound : s.Sound) (prepared : Prepared) (now now' : Nat) :
    (∃ e t, enqueue prepared now now' s = .error e t ∧ Idles s t) ∨
      ∃ id t, enqueue prepared now now' s = .ok () t ∧ Booked s t id := by
  simp only [enqueue, get_bind, check_bind]
  split
  next =>
    split
    next =>
      split
      next id numbered =>
        simp only [okOr_eq_ok, checkedSucc_eq_some] at numbered
        have new : s.next < id := by omega
        have advanced : Idles s { s with next := id } :=
          .aside sound rfl (fun _ => rfl) new.le (fun closed => closed) sound.latched
        simp only [set_bind, check_bind]
        split
        next =>
          split
          next => exact .inr ⟨id, _, rfl, new, rfl, ⟨_, rfl⟩, ⟨_, rfl⟩, Policy.admits_closed, rfl⟩
          next => exact .inl ⟨_, _, rfl, advanced⟩
        next => exact .inl ⟨_, _, rfl, advanced⟩
      next => exact .inl ⟨_, _, rfl, .refl sound⟩
    next => exact .inl ⟨_, _, rfl, .refl sound⟩
  next => exact .inl ⟨_, _, rfl, .refl sound⟩

theorem State.Sound.control (sound : s.Sound) (value : Bytes) :
    Idles s (after (control value s)) := by
  simp only [Worker.control, get_bind, check_bind]
  split
  next =>
    split
    next =>
      split
      next => exact .aside sound rfl (fun _ => rfl) le_rfl (fun closed => closed) sound.latched
      next => exact .refl sound
    next => exact .refl sound
  next => exact .refl sound

theorem State.Sound.active (sound : s.Sound) (id now : Nat) :
    Idles s (after (active id now s)) := by
  simp only [Worker.active, get_bind, check_bind]
  split
  next outcome _ =>
    cases outcome.phase with
    | pending =>
      simp only [check_bind]
      split
      next =>
        split
        next => exact .refl sound
        next => exact sound.suppress id
      next => exact .refl sound
    | committed | suppressed | indeterminate => exact .refl sound
  next => exact .refl sound

/-- A fence that is refused, by the transport or by the owner of the keys, does nothing. -/
theorem Operation.run_fence (s : State) (worker : String) (generation : Nat)
    (apply : Except Error Unit) : (Operation.fence worker generation apply).run s =
      if s.fenceable worker generation = true ∧ apply = .ok () then s.fence else s := by
  simp only [Operation.run, Worker.fence, get_bind, check_bind, refuseIf]
  cases fenceable : s.fenceable worker generation with
  | false => rfl
  | true =>
    cases apply with
    | error => rfl
    | ok =>
      cases s.fence.disposition with
      | error => rfl
      | ok => rfl

/-- A result is accepted under this number. -/
def Operation.Accepts (op : Operation) (s : State) (id : Nat) : Prop :=
  ∃ prepared now now' t, op = .enqueue prepared now now' ∧
    Worker.enqueue prepared now now' s = .ok () t ∧ t.next = id

theorem State.Sound.operation (sound : s.Sound) (op : Operation) :
    Idles s (op.run s) ∨ ∃ id, op.Accepts s id ∧ Booked s (op.run s) id := by
  cases op with
  | enqueue prepared now now' =>
    rcases enqueue_cases sound prepared now now' with ⟨e, t, ran, idles⟩ | ⟨id, t, ran, booked⟩
    · left
      rw [Operation.run, ran]
      exact idles
    · right
      refine ⟨id, ⟨prepared, now, now', t, rfl, ran, booked.next⟩, ?_⟩
      rw [Operation.run, ran]
      exact booked
  | control value => exact .inl (sound.control value)
  | fence =>
    left
    rw [Operation.run_fence]
    split
    next => exact sound.fence
    next => exact .refl sound
  | stop => exact .inl sound.stop

/-! ### Releases -/

def Write.IsCapsule (write : Write) (id : Nat) : Prop :=
  ∃ capsule : Capsule, capsule.id = id ∧ write.bytes = capsule.bytes

/-- What the sink reports of the record. -/
def Write.outcome (write : Write) : Except Error Bool := write.answer.outcome write.bytes.length

/-- A capsule that is not tried again. -/
def Write.Settles (write : Write) (id : Nat) : Prop :=
  write.IsCapsule id ∧ write.outcome ≠ .ok false

/-- The sink has the whole capsule. -/
def Write.Completes (write : Write) (id : Nat) : Prop :=
  write.IsCapsule id ∧ write.bytes.length ≤ write.answer.taken

/-- What the answer of a sink makes of the books. -/
def State.answered (s : State) (id : Nat) (o : Outcome) : Except Error Bool → State
  | .ok true => s.settle id o .committed
  | .ok false => { s with outcomes := s.outcomes.insert id o }
  | .error _ => (s.settle id o .indeterminate).failTransport

/-- The capsule of a pending delivery goes to the sink of an open transport. -/
structure Released (w : Transport) (id : Nat) (o : Outcome) (capsule : Capsule)
    (answer : SinkAnswer) (t : Transport) : Prop where
  stored : w.state.outcomes.lookup id = some o
  pending : o.phase = .pending
  named : capsule.id = id
  isOpen : w.state.policy.closed = false
  state : t.state = w.state.answered id o (answer.outcome capsule.bytes.length)
  sink : t.sink = w.sink ++ [⟨capsule.bytes, answer⟩]

/-- The phase and the result that the answer of a sink leads to. -/
def phaseAfter : Except Error Bool → Phase × Except Error Phase
  | .ok true => (.committed, .ok .committed)
  | .ok false => (.pending, .ok .pending)
  | .error e => (.indeterminate, .error e)

theorem release_atomic (allowed : policy.allows window now = true)
    (answer : SinkAnswer) (bytes : Bytes) (sink : List Write) :
    (policy.release .pending window now (atomic answer bytes)).run sink =
      (phaseAfter (answer.outcome bytes.length), sink ++ [⟨bytes, answer⟩]) := by
  simp only [Policy.release, allowed, if_true, atomic, phaseAfter]
  cases answer.outcome bytes.length with
  | error => rfl
  | ok sent => cases sent <;> rfl

variable {w : Transport}

theorem releaseCapsule_cases
    (stored : w.state.outcomes.lookup capsule.id = some o) (pending : o.phase = .pending)
    (now : Nat) (answer : SinkAnswer) :
    after (releaseCapsule o capsule now answer w) =
        { w with state := w.state.suppress capsule.id } ∨
      Released w capsule.id o capsule answer (after (releaseCapsule o capsule now answer w)) := by
  simp only [releaseCapsule, get_bind, pending]
  cases allowed : w.state.policy.allows (w.state.window o.authority) now with
  | false =>
    left
    have suppressed : o.suppress = { o with phase := .suppressed } := if_pos pending
    simp only [Policy.release, if_true, allowed, State.suppress, adjust, stored, suppressed]
    rfl
  | true =>
    right
    have same : { o with phase := .pending } = o := by rw [← pending]
    rw [release_atomic allowed]
    apply Released.mk stored pending rfl (Policy.not_closed_of_allows allowed)
    · cases answer.outcome capsule.bytes.length with
      | error => rfl
      | ok sent =>
        cases sent with
        | true => rfl
        | false =>
          simp only [phaseAfter, same]
          rfl
    · cases answer.outcome capsule.bytes.length with
      | error => rfl
      | ok sent => cases sent <;> rfl

/-- A release leaves everything alone, suppresses the delivery, gives the transport up,
    or hands the capsule to the sink. -/
theorem release_cases (w : Transport) (id now now' : Nat) (answer : SinkAnswer) :
    after (release id now now' answer w) = w ∨
    after (release id now now' answer w) = { w with state := w.state.suppress id } ∨
    after (release id now now' answer w) = { w with state := w.state.failTransport } ∨
    ∃ o capsule, Released w id o capsule answer (after (release id now now' answer w)) := by
  simp only [release, get_bind, check_bind]
  split
  next o found =>
    rw [okOr_eq_ok] at found
    cases phase : o.phase with
    | committed | suppressed | indeterminate => exact .inl rfl
    | pending =>
      split
      next => exact .inr (.inl rfl)
      next =>
        simp only [check_bind]
        split
        next key _ =>
          generalize made : Capsule.mk id _ _ _ _ key = capsule
          have named : capsule.id = id := by rw [← made]
          cases checkRecord capsule.bytes with
          | error => exact .inr (.inr (.inl rfl))
          | ok =>
            subst named
            rcases releaseCapsule_cases found phase now' answer with suppressed | released
            · exact .inr (.inl suppressed)
            · exact .inr (.inr (.inr ⟨o, capsule, released⟩))
        next => exact .inl rfl
  next => exact .inl rfl

section
variable (sound : s.Sound) (stored : s.outcomes.lookup id = some o) (pending : o.phase = .pending)
include sound stored pending

/-- An answer leaves the delivery to be tried again, or settles it first. -/
theorem State.Sound.answered_cases (answer : Except Error Bool) :
    (answer = .ok false ∧ Idles s (s.answered id o answer)) ∨
      answer ≠ .ok false ∧ Keeps s (s.settle id o (phaseAfter answer).1) ∧
        Idles (s.settle id o (phaseAfter answer).1) (s.answered id o answer) := by
  cases answer with
  | error =>
    have settled : Keeps s (s.settle id o .indeterminate) := sound.settle stored pending (by decide)
    exact .inr ⟨nofun, settled, settled.sound.failTransport⟩
  | ok sent =>
    cases sent with
    | true =>
      have settled : Keeps s (s.settle id o .committed) := sound.settle stored pending (by decide)
      exact .inr ⟨nofun, settled, .refl settled.sound⟩
    | false =>
      refine .inl ⟨rfl, .aside sound rfl ?_ le_rfl (fun closed => closed) sound.latched⟩
      intro _
      rw [State.answered, lookup_insert_apply]
      split
      next same => rw [same, stored]
      next => rfl

theorem State.Sound.answered (answer : Except Error Bool) : Keeps s (s.answered id o answer) := by
  rcases sound.answered_cases stored pending answer with ⟨-, idles⟩ | ⟨-, settled, idles⟩
  · exact idles.toKeeps
  · exact settled.trans idles.toKeeps

variable {answer : Except Error Bool}

theorem State.Sound.answered_ids (other : Nat)
    (member : other ∈ (s.answered id o answer).outcomes) : other ∈ s.outcomes := by
  rcases sound.answered_cases stored pending answer with ⟨-, idles⟩ | ⟨-, -, idles⟩
  · exact idles.ids other member
  · exact State.settle_ids stored other (idles.ids other member)

end

/-! ### Records are told apart -/

theorem recordBytes_inj (same : recordBytes a = recordBytes b) : a = b := by
  have texts : String.ofList a = String.ofList b := utf8_inj (append_cancel_right same)
  have chars := congrArg String.toList texts
  rwa [String.toList_ofList, String.toList_ofList] at chars

/-- The first letter of the event tells a chunk from a capsule. -/
theorem chunk_ne_capsule (chunk : Chunk) (capsule : Capsule) : chunk.bytes ≠ capsule.bytes := by
  intro same
  have texts := recordBytes_inj same
  have event : "\x7b\"event\":\"release\",\"id\":".toList = "\x7b\"event\":".toList ++
      quote :: 'r' :: "elease\",\"id\":".toList := by decide +kernel
  have staged : jsonString "staged".toList = quote :: 's' :: "taged\"".toList := by decide +kernel
  have control : jsonString "control".toList = quote :: 'c' :: "ontrol\"".toList := by
    decide +kernel
  unfold Chunk.text Capsule.text at texts
  rw [event] at texts
  simp only [append_assoc, append_cancel_left_eq] at texts
  split at texts
  next =>
    rw [staged] at texts
    simp only [cons_append, List.cons.injEq] at texts
    exact absurd texts.2.1 (by decide)
  next =>
    rw [control] at texts
    simp only [cons_append, List.cons.injEq] at texts
    exact absurd texts.2.1 (by decide)

theorem capsule_id_inj {a b : Capsule} (same : a.bytes = b.bytes) : a.id = b.id := by
  have texts := recordBytes_inj same
  have comma : ",\"worker\":".toList = ',' :: "\"worker\":".toList := by decide +kernel
  unfold Capsule.text at texts
  rw [comma] at texts
  simp only [append_assoc, append_cancel_left_eq, cons_append] at texts
  exact jsonNumber_comma texts

/-! ### Steps -/

/-- What a step does to the transport, and the number that it accepts a result under. -/
inductive TransportStep (w : Transport) : Option Nat → Transport → Prop where
  | aside (t : State) (idles : Idles w.state t) : TransportStep w none { w with state := t }
  | booked (id : Nat) (t : State) (booked : Booked w.state t id) :
      TransportStep w (some id) { w with state := t }
  | chunk (chunk : Chunk) (answer : SinkAnswer) :
      TransportStep w none { w with sink := w.sink ++ [⟨chunk.bytes, answer⟩] }
  | capsule (id : Nat) (o : Outcome) (capsule : Capsule) (answer : SinkAnswer) (t : Transport)
      (released : Released w id o capsule answer t) : TransportStep w none t

abbrev DeliveryLabel (ι : Type) : Type := Label ι WriterCall WriterCall.Reply Operation

abbrev DeliverySystem (ι : Type) : Type := System Transport ι WriterCall WriterCall.Reply Unit

variable {t : Transport}

theorem WriterCall.Answers.transportStep {c : WriterCall} {reply : c.Reply}
    (answers : c.Answers w reply t) (sound : w.state.Sound) : TransportStep w none t := by
  cases answers with
  | expire _ t expired => exact .aside t (sound.expire expired)
  | stopped => exact .aside w.state (.refl sound)
  | popFront =>
    apply TransportStep.aside
    exact .aside sound rfl (fun _ => rfl) le_rfl (fun closed => closed) sound.latched
  | active id now _ t answered =>
    apply TransportStep.aside
    rw [← after_of_run answered]
    exact sound.active id now
  | write chunk answer => exact .chunk chunk answer
  | release id now now' answer _ _ answered =>
    rw [← after_of_run answered]
    rcases release_cases w id now now' answer with same | suppressed | failed | ⟨o, capsule, out⟩
    · rw [same]
      exact .aside w.state (.refl sound)
    · rw [suppressed]
      exact .aside _ (sound.suppress id)
    · rw [failed]
      exact .aside _ sound.failTransport
    · exact .capsule id o capsule answer _ out
  | failTransport => exact .aside _ sound.failTransport

section
variable {ι : Type} [DecidableEq ι]

theorem deliveryStep_transport {s t : DeliverySystem ι}
    (step : Step (deliveryRules ι) s label t) (sound : s.world.state.Sound) :
    ∃ accepted, TransportStep s.world accepted t.world ∧ ∀ id, accepted = some id →
      ∃ op, label = .environment op ∧ op.Accepts s.world.state id := by
  cases step with
  | start => exact ⟨none, .aside s.world.state (.refl sound), by simp⟩
  | call _ _ _ _ _ _ answered =>
    exact ⟨none, WriterCall.Answers.transportStep answered sound, by simp⟩
  | drop _ _ _ _ _ left => exact left.elim
  | environment op _ changed =>
    rw [changed]
    rcases sound.operation op with idles | ⟨id, accepts, booked⟩
    · exact ⟨none, .aside _ idles, by simp⟩
    · refine ⟨some id, .booked id _ booked, ?_⟩
      rintro _ ⟨⟩
      exact ⟨op, rfl, accepts⟩

end

theorem TransportStep.keeps (step : TransportStep w accepted t)
    (sound : w.state.Sound) : Keeps w.state t.state := by
  cases step with
  | aside _ idles => exact idles.toKeeps
  | booked _ _ booked => exact booked.keeps sound
  | chunk => exact ⟨sound, .refl _⟩
  | capsule _ _ _ _ _ released =>
    rw [released.state]
    exact sound.answered released.stored released.pending _

/-- The transport knows the results it has accepted, and no others. -/
theorem TransportStep.ids (step : TransportStep w accepted t)
    (sound : w.state.Sound) (member : id ∈ t.state.outcomes) :
    id ∈ w.state.outcomes ∨ accepted = some id := by
  cases step with
  | aside _ idles => exact .inl (idles.ids id member)
  | booked _ _ booked =>
    obtain ⟨a, outcomes⟩ := booked.outcomes
    rw [outcomes, AList.mem_insert] at member
    rcases member with rfl | old
    · exact .inr rfl
    · exact .inl old
  | chunk => exact .inl member
  | capsule _ _ _ _ _ out =>
    left
    rw [out.state] at member
    exact sound.answered_ids out.stored out.pending id member

/-- Writes are only added, and none of a capsule once the transport is closed. -/
theorem TransportStep.writes (step : TransportStep w accepted t) :
    ∃ new, t.sink = w.sink ++ new ∧ (w.state.policy.closed = true →
      ∀ write ∈ new, ∀ id, ¬write.IsCapsule id) := by
  cases step with
  | aside | booked => exact ⟨[], by simp, by simp⟩
  | chunk chunk =>
    refine ⟨_, rfl, fun _ _ member _ => ?_⟩
    cases mem_singleton.mp member
    rintro ⟨capsule, _, same⟩
    exact chunk_ne_capsule chunk capsule same
  | capsule _ _ _ _ _ released =>
    refine ⟨_, released.sink, fun closed => ?_⟩
    rw [released.isOpen] at closed
    cases closed

/-! ### Capsules that are out -/

/-- A sink that wants the record again has taken nothing of it. -/
theorem Write.taken_of_retried {write : Write} (retried : write.outcome = .ok false) :
    write.answer.taken = 0 := by
  unfold Write.outcome SinkAnswer.outcome at retried
  split at retried
  next => split at retried <;> cases retried
  next blocked => exact write.answer.quiet (.inl blocked)
  next interrupted => exact write.answer.quiet (.inr interrupted)
  next => cases retried

/-- The sink has taken the whole capsule, so that it is not tried again. -/
theorem Write.Completes.settles {write : Write} (completes : write.Completes id) :
    write.Settles id := by
  obtain ⟨isCapsule, whole⟩ := completes
  apply And.intro isCapsule
  intro retried
  obtain ⟨_, _, bytes⟩ := isCapsule
  rw [Write.taken_of_retried retried, bytes] at whole
  simp [Capsule.bytes, recordBytes] at whole

theorem phaseAfter_ended (settled : answer ≠ .ok false) : (phaseAfter answer).1 ≠ .pending := by
  cases answer with
  | error => simp [phaseAfter]
  | ok sent =>
    cases sent with
    | true => simp [phaseAfter]
    | false => exact absurd rfl settled

/-- The phase that the answer of a sink ends a delivery in. -/
theorem lookup_answered (sound : s.Sound) (stored : s.outcomes.lookup id = some o)
    (pending : o.phase = .pending) (settled : answer ≠ .ok false) :
    ∃ o', (s.answered id o answer).outcomes.lookup id = some o' ∧
      o'.phase = (phaseAfter answer).1 := by
  rcases sound.answered_cases stored pending answer with ⟨retried, -⟩ | ⟨-, -, idles⟩
  · exact absurd retried settled
  · exact ⟨_, idles.moves.terminal id _ (AList.lookup_insert _) (phaseAfter_ended settled), rfl⟩

/-- The capsule of a delivery is out exactly if the books say so, and only once. -/
structure Transport.Accounted (w : Transport) : Prop where
  sound : w.state.Sound
  ended : ∀ write ∈ w.sink, ∀ id, write.Settles id →
    ∃ o, w.state.outcomes.lookup id = some o ∧ o.phase = (phaseAfter write.outcome).1
  once : w.sink.Pairwise fun a b => ∀ id, a.Settles id → ¬b.Settles id
  committed : ∀ id o, w.state.outcomes.lookup id = some o → o.phase = .committed →
    ∃ write ∈ w.sink, write.IsCapsule id ∧ write.outcome = .ok true

/-- A write more or none; a capsule that it settles is the first one of its delivery. -/
theorem Transport.Accounted.write (accounted : w.Accounted)
    (keeps : Keeps w.state t.state) (new : Option Write) (sink : t.sink = w.sink ++ new.toList)
    (fresh : ∀ write, new = some write → ∀ id, write.Settles id →
      (∀ write ∈ w.sink, ¬write.Settles id) ∧
      ∃ o, t.state.outcomes.lookup id = some o ∧ o.phase = (phaseAfter write.outcome).1)
    (committed : ∀ id o, t.state.outcomes.lookup id = some o → o.phase = .committed →
      w.state.outcomes.lookup id = some o ∨
        ∃ write, new = some write ∧ write.IsCapsule id ∧ write.outcome = .ok true) :
    t.Accounted := by
  apply Transport.Accounted.mk keeps.sound
  · intro write member id settles
    rw [sink] at member
    rcases mem_append.mp member with old | last
    · obtain ⟨o, stored, phase⟩ := accounted.ended write old id settles
      have ended : o.phase ≠ .pending := phase ▸ phaseAfter_ended settles.2
      exact ⟨o, keeps.moves.terminal id o stored ended, phase⟩
    · exact (fresh write (Option.mem_toList.mp last) id settles).2
  · rw [sink, pairwise_append]
    refine ⟨accounted.once, ?_, ?_⟩
    · cases new <;> simp
    · intro write old _ last id settles settles'
      exact (fresh _ (Option.mem_toList.mp last) id settles').1 write old settles
  · intro id o stored phase
    rw [sink]
    rcases committed id o stored phase with before | ⟨write, rfl, out⟩
    · obtain ⟨write, member, out⟩ := accounted.committed id o before phase
      exact ⟨write, mem_append_left _ member, out⟩
    · exact ⟨write, mem_append_right _ (mem_singleton_self write), out⟩

theorem Transport.Accounted.idles (accounted : w.Accounted) (idles : Idles w.state u) :
    Transport.Accounted { w with state := u } := by
  apply accounted.write (t := { w with state := u }) idles.toKeeps none (append_nil _).symm nofun
  intro id o stored committed
  exact .inl (idles.uncommitted id o stored committed)

theorem Transport.Accounted.unique (accounted : w.Accounted) {m n : Nat}
    (first : w.sink[m]? = some a) (second : w.sink[n]? = some b) (settles : a.Settles id)
    (settles' : b.Settles id) : m = n := by
  obtain ⟨_, rfl⟩ := List.getElem?_eq_some_iff.mp first
  obtain ⟨_, rfl⟩ := List.getElem?_eq_some_iff.mp second
  have apart := pairwise_iff_getElem.mp accounted.once
  rcases Nat.lt_trichotomy m n with less | same | more
  · exact absurd settles' (apart m n _ _ less id settles)
  · exact same
  · exact absurd settles (apart n m _ _ more id settles')

/-- Which deliveries a release commits. -/
theorem answered_committed (sound : s.Sound)
    (stored : s.outcomes.lookup id = some o) (pending : o.phase = .pending)
    (found : (s.answered id o answer).outcomes.lookup other = some o')
    (committed : o'.phase = .committed) :
    s.outcomes.lookup other = some o' ∨ other = id ∧ answer = .ok true := by
  rcases sound.answered_cases stored pending answer with ⟨-, idles⟩ | ⟨-, -, idles⟩
  · exact .inl (idles.uncommitted other o' found committed)
  · rcases lookup_insert_cases (idles.uncommitted other o' found committed) with
      ⟨same, rfl⟩ | ⟨_, kept⟩
    · refine .inr ⟨same, ?_⟩
      cases answer with
      | error => cases committed
      | ok sent =>
        cases sent with
        | true => rfl
        | false => cases committed
    · exact .inl kept

theorem Transport.Accounted.step (accounted : w.Accounted)
    (step : TransportStep w accepted t) : t.Accounted := by
  have keeps := step.keeps accounted.sound
  cases step with
  | aside _ idles => exact accounted.idles idles
  | booked _ _ booked =>
    apply accounted.write keeps none (append_nil _).symm nofun
    intro other o stored committed
    obtain ⟨a, outcomes⟩ := booked.outcomes
    rw [outcomes] at stored
    rcases lookup_insert_cases stored with ⟨_, rfl⟩ | ⟨_, kept⟩
    · cases committed
    · exact .inl kept
  | chunk chunk answer =>
    apply accounted.write keeps (some ⟨chunk.bytes, answer⟩) rfl
    · rintro _ ⟨⟩ id ⟨⟨capsule, _, same⟩, _⟩
      exact absurd same (chunk_ne_capsule chunk capsule)
    · intro id o stored _
      exact .inl stored
  | capsule id _ capsule _ _ released =>
    apply accounted.write keeps (some _) released.sink
    · rintro _ ⟨⟩ other ⟨⟨twin, rfl, same⟩, settled⟩
      have named : twin.id = id := by
        rw [← released.named]
        exact (capsule_id_inj same).symm
      rw [named]
      constructor
      · -- an earlier capsule would have ended the delivery
        intro write member settles
        obtain ⟨_, stored, phase⟩ := accounted.ended write member id settles
        rw [released.stored] at stored
        cases stored
        exact phaseAfter_ended settles.2 (phase.symm.trans released.pending)
      · rw [released.state]
        exact lookup_answered accounted.sound released.stored released.pending settled
    · intro _ _ found committed
      rw [released.state] at found
      rcases answered_committed accounted.sound released.stored released.pending found committed
        with before | ⟨rfl, accepted⟩
      · exact .inl before
      · exact .inr ⟨_, rfl, ⟨capsule, released.named, rfl⟩, accepted⟩

theorem Transport.accounted_new (worker : String) : Transport.Accounted ⟨.new worker, []⟩ := by
  have sound : (State.new worker).Sound := by
    constructor
    · intro id
      simp [State.new, State.phase?, AList.notMem_empty]
    · intro id member
      exact absurd member (AList.notMem_empty id)
    · nofun
  apply Transport.Accounted.mk sound
  · nofun
  · exact .nil
  · nofun

end KeyRack.Worker
