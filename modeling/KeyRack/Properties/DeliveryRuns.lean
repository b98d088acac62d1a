import KeyRack.Properties.DeliveryBooks

/-!
# Runs of the transport

Any number of writers take records to the sink while results are accepted, and a
fence, a stop or a fault may come at any moment.
-/
namespace KeyRack.Worker

open Process Stateful Trace

/-! ### Writers that meet a broken pipe -/

abbrev WriterEvent : Type := Event WriterCall WriterCall.Reply

/-- A write that the sink has not taken as it should. -/
inductive Failing : WriterEvent → Prop where
  | write (chunk : Chunk) (answer : SinkAnswer) (e : Error)
      (failed : answer.outcome chunk.bytes.length = .error e) : Failing ⟨.write chunk, answer⟩

/-- Such a write is the last thing that has happened. -/
def Broken (past : List WriterEvent) : Prop := ∃ event, past.getLast? = some event ∧ Failing event

/-- After that, the transport is given up before anything else. -/
def GivesUp (past : List WriterEvent) (c : WriterCall) : Prop := Broken past → c = .failTransport

variable {past : List WriterEvent}

theorem broken_append : Broken (past ++ [event]) ↔ Failing event := by
  simp [Broken]

theorem givesUp_of_whole (whole : ¬Broken past) : GivesUp past c :=
  fun broken => absurd broken whole

/-- A part of a step that ends with the pipe whole, if it succeeds. -/
abbrev Whole (past : List WriterEvent) {α : Type} (part : WriterM α) : Prop :=
  Returns GivesUp past (fun later _ => ¬Broken later) part

theorem refresh_whole (job : Job) (whole : ¬Broken past) : Whole past (refresh job) := by
  unfold refresh
  split
  next => exact returns_pure whole
  next id _ =>
    apply returns_observe_then (givesUp_of_whole whole)
    intro r
    have whole : ¬Broken (past ++ [⟨.active id, r⟩]) := by
      rw [broken_append]
      rintro ⟨⟩
    apply returns_check_then
    intro _ _
    split
    next => exact returns_pure whole
    next => exact returns_check fun _ _ => whole

theorem deliver_whole (job : Job) (whole : ¬Broken past) : Whole past (deliver job) := by
  unfold deliver
  split
  next =>
    apply returns_observe_then (givesUp_of_whole whole)
    intro _
    apply returns_check_then
    intro _ passed
    apply returns_pure
    rw [broken_append]
    rintro ⟨_, _, e, failed⟩
    rw [passed] at failed
    cases failed
  next =>
    split
    next => exact returns_pure whole
    next id _ =>
      apply returns_observe_then (givesUp_of_whole whole)
      intro r
      have whole : ¬Broken (past ++ [⟨.release id, r⟩]) := by
        rw [broken_append]
        rintro ⟨⟩
      apply returns_check_then
      intro phase _
      cases phase with
      | committed | pending => exact returns_pure whole
      | indeterminate => exact returns_throw
      | suppressed =>
        apply returns_check_then
        intro _ _
        exact returns_pure whole

theorem stepInner_whole (current : Option Job) (whole : ¬Broken past) :
    Whole past (stepInner current) := by
  apply returns_observe_then (givesUp_of_whole whole)
  intro expired
  have whole : ¬Broken (past ++ [⟨.expire, expired⟩]) := by
    rw [broken_append]
    rintro ⟨⟩
  apply returns_observe_then (givesUp_of_whole whole)
  intro stopped
  have whole : ¬Broken (past ++ [⟨.expire, expired⟩] ++ [⟨.stopped, stopped⟩]) := by
    rw [broken_append]
    rintro ⟨⟩
  split
  next => exact returns_pure whole
  next =>
    have next : Whole (past ++ [⟨.expire, expired⟩] ++ [⟨.stopped, stopped⟩])
        (currentJob current) := by
      cases current with
      | some => exact returns_pure whole
      | none =>
        apply returns_observe (givesUp_of_whole whole)
        intro job
        rw [broken_append]
        rintro ⟨⟩
    apply Returns.bind next
    intro later job _ whole
    cases job with
    | none => exact returns_pure whole
    | some job =>
      apply Returns.bind (refresh_whole job whole)
      intro _ job _ whole
      exact deliver_whole job whole

theorem writerStep_whole (current : Option Job) (whole : ¬Broken past) :
    Obeys GivesUp (fun later _ => ¬Broken later) past (writerStep current) := by
  apply obeys_bind.mpr
  apply Obeys.mono (stepInner_whole current whole)
  rintro _ (e | job) ⟨_, ended⟩
  · -- the error may be that of a failed write
    apply obeys_bind.mpr
    apply obeys_ask.mpr
    apply And.intro fun _ => rfl
    intro r
    apply obeys_pure.mpr
    rw [broken_append]
    rintro ⟨⟩
  · exact ended job rfl

theorem writerSteps_whole (n : Nat) (current : Option Job) (whole : ¬Broken past) :
    Obeys GivesUp (fun later _ => ¬Broken later) past (writerSteps n current) := by
  induction n generalizing past current with
  | zero => exact whole
  | succ n ih =>
    apply obeys_bind.mpr
    apply (writerStep_whole current whole).mono
    intro _ outcome whole
    exact ih outcome.2 whole

theorem starts_whole {ι : Type} (starts : (deliveryRules ι).starts p) :
    Obeys GivesUp (fun later _ => ¬Broken later) [] p := by
  obtain ⟨n, rfl⟩ := starts
  apply writerSteps_whole
  rintro ⟨_, last, _⟩
  cases last

/-! ### Runs -/

section
variable {ι : Type} [DecidableEq ι] {s t u : DeliverySystem ι} {label : DeliveryLabel ι}
  {labels more : List (DeliveryLabel ι)}

/-- A new transport, before any writer has started. -/
def newDelivery (ι : Type) (worker : String) : DeliverySystem ι :=
  ⟨⟨.new worker, []⟩, fun _ => .idle⟩

theorem deliveryStep_accounted (step : Step (deliveryRules ι) s label t)
    (accounted : s.world.Accounted) : t.world.Accounted := by
  obtain ⟨_, step, _⟩ := deliveryStep_transport step accounted.sound
  exact accounted.step step

section
variable (steps : Steps (Step (deliveryRules ι)) s labels t) (accounted : s.world.Accounted)
include steps accounted

theorem deliverySteps_accounted : t.world.Accounted :=
  steps.invariant (P := fun s => s.world.Accounted) (fun _ _ _ => deliveryStep_accounted)
    accounted

theorem deliverySteps_moves : Moves s.world.state t.world.state := by
  induction steps with
  | nil => exact .refl _
  | cons first _ ih =>
    obtain ⟨_, step, _⟩ := deliveryStep_transport first accounted.sound
    exact (step.keeps accounted.sound).moves.trans (ih (accounted.step step))

/-- A closed transport writes no capsule. -/
theorem deliverySteps_closed (closed : s.world.state.policy.closed = true) :
    ∃ new, t.world.sink = s.world.sink ++ new ∧ ∀ write ∈ new, ∀ id, ¬write.IsCapsule id := by
  induction steps with
  | nil => exact ⟨[], by simp, by simp⟩
  | cons first _ ih =>
    obtain ⟨_, step, _⟩ := deliveryStep_transport first accounted.sound
    have keeps := step.keeps accounted.sound
    obtain ⟨one, sink, plain⟩ := step.writes
    obtain ⟨rest, sink', plain'⟩ := ih (accounted.step step) (keeps.moves.closed closed)
    refine ⟨one ++ rest, by rw [sink', sink, List.append_assoc], ?_⟩
    intro write member
    rcases List.mem_append.mp member with here | later
    · exact plain closed write here
    · exact plain' write later

end

/-- What ends all releases: a stop, a fence that is applied, a fault of the transport, or
    a write that fails, if no other writer is there to come in before the fault is noted. -/
inductive EndsReleases (s : DeliverySystem ι) (t : DeliverySystem ι) : DeliveryLabel ι → Prop where
  | stop : EndsReleases s t (.environment .stop)
  | fence (worker : String) (generation : Nat)
      (fenceable : s.world.state.fenceable worker generation = true) :
      EndsReleases s t (.environment (.fence worker generation (.ok ())))
  | faulted (label : DeliveryLabel ι) (fault : t.world.state.faulted = true) :
      EndsReleases s t label
  | failed (i : ι) (event : WriterEvent) (only : ∀ j, j = i) (failing : Failing event) :
      EndsReleases s t (.called i event)

/-- Between a failed write and the fault it leads to, its writer does nothing else. -/
theorem deliverySteps_failed {past : List (DeliveryLabel ι)} (only : ∀ j, j = i)
    (following : Following GivesUp (fun later _ => ¬Broken later) past s)
    (broken : Broken (own i past)) (accounted : s.world.Accounted)
    (steps : Steps (Step (deliveryRules ι)) s labels t) :
    ∃ new, t.world.sink = s.world.sink ++ new ∧ ∀ write ∈ new, ∀ id, ¬write.IsCapsule id := by
  induction steps generalizing past with
  | nil => exact ⟨[], by simp, by simp⟩
  | cons first rest ih =>
    obtain ⟨_, step, _⟩ := deliveryStep_transport first accounted.sound
    obtain ⟨permitted, next⟩ := first.following (fun p starts => starts_whole starts) following
    cases first with
    | start j _ idle =>
      obtain ⟨_, last, _⟩ := broken
      rw [following.idle i (only j ▸ idle)] at last
      cases last
    | call j c _ _ _ _ answered =>
      cases only j
      cases (permitted broken : c = .failTransport)
      cases answered
      have failed := accounted.sound.failTransport
      have closed := deliverySteps_closed rest (accounted.step step) (failed.sound.latched rfl)
      exact closed
    | drop _ _ _ _ _ left => exact left.elim
    | environment op _ changed =>
      have same : own i (past ++ [.environment op]) = own i past := by
        rw [own_append]
        exact List.append_nil _
      rw [changed] at step rest next ih
      exact ih next (same ▸ broken) (accounted.step step)

/-- In every run, a transport key is held exactly for the pending deliveries, an outcome
    stays what it has become, no capsule goes out twice, and none goes out after a stop,
    a fence or a fault. -/
theorem delivery_runs (worker : String)
    (steps : Steps (Step (deliveryRules ι)) (newDelivery ι worker) labels s) :
    (∀ id, id ∈ s.world.state.permits ↔ s.world.state.phase? id = some .pending) ∧
    (∀ (m n : Nat) (a b : Write) (id : Nat), s.world.sink[m]? = some a →
      s.world.sink[n]? = some b → a.Completes id → b.Completes id → m = n) ∧
    (∀ more t, Steps (Step (deliveryRules ι)) s more t → ∀ id phase,
      s.world.state.phase? id = some phase → phase ≠ .pending →
      t.world.state.phase? id = some phase) ∧
    ∀ label t more u, Step (deliveryRules ι) s label t → EndsReleases s t label →
      Steps (Step (deliveryRules ι)) t more u →
      ∃ new, u.world.sink = t.world.sink ++ new ∧ ∀ write ∈ new, ∀ id, ¬write.IsCapsule id := by
  obtain ⟨following, accounted⟩ := steps_guided (P := fun _ s => s.world.Accounted)
    (fun p starts => starts_whole starts)
    (fun _ _ _ _ step _ _ accounted => deliveryStep_accounted step accounted) steps
    (fun _ => rfl) (Transport.accounted_new worker)
  refine ⟨accounted.sound.held, ?_, ?_, ?_⟩
  · intro m n a b id first second completes completes'
    exact accounted.unique first second completes.settles completes'.settles
  · intro more t later id _ stored ended
    obtain ⟨o, found, rfl⟩ := State.phase?_eq_some.mp stored
    have kept := (deliverySteps_moves later accounted).terminal id o found ended
    exact State.phase?_eq_some.mpr ⟨o, kept, rfl⟩
  · intro _ t _ u step ends later
    have next := deliveryStep_accounted step accounted
    cases ends with
    | stop =>
      cases step with
      | environment _ _ changed =>
        rw [changed] at later next ⊢
        have closed : s.world.state.stop.policy.closed = true := rfl
        exact deliverySteps_closed later next closed
    | fence _ _ fenceable =>
      cases step with
      | environment _ _ changed =>
        rw [changed] at later next ⊢
        apply deliverySteps_closed later next
        simp only [Operation.run_fence, fenceable, and_self, if_true]
        exact s.world.state.policy.closed_fence
    | faulted _ fault => exact deliverySteps_closed later next (next.sound.latched fault)
    | failed _ _ only failing =>
      have after := (step.following (fun p starts => starts_whole starts) following).2
      apply deliverySteps_failed only after _ next later
      rw [own_append, own_called_self]
      exact broken_append.mpr failing

end

/-! ### A delivery that can be evaluated -/

def sampleAuthority : Authority := ⟨"worker", 1, 1, Vector.replicate 32 7, 0, 100⟩

def samplePrepared : Prepared := ⟨sampleAuthority, Vector.replicate 32 9, "AAAA".toList⟩

def sampleCapsule : Capsule :=
  ⟨1, "worker", 1, 1, Vector.replicate 32 7, Vector.replicate 32 9⟩

/-- A sink that takes records of this length. -/
def takes (length : Nat) : SinkAnswer := ⟨.ok length, length, by simp⟩

/-- The clock stands at 5, and the sink takes everything. -/
def deliveryAnswer (w : Transport) : (c : WriterCall) → c.Reply × Transport
  | .expire => ((), { w with state := (w.state.expire fun _ => 5).getD w.state })
  | .stopped => (w.state.policy.stopped, w)
  | .popFront =>
    (w.state.queue.head?, { w with state := { w.state with queue := w.state.queue.tail } })
  | .active id =>
    let (reply, state) := Stateful.run (active id 5) w.state
    (reply, { w with state })
  | .write chunk =>
    (takes chunk.bytes.length,
      { w with sink := w.sink ++ [⟨chunk.bytes, takes chunk.bytes.length⟩] })
  | .release id => Stateful.run (release id 5 5 (takes sampleCapsule.bytes.length)) w
  | .failTransport => ((), { w with state := w.state.failTransport })

def enqueuedDelivery : Transport :=
  { (newDelivery Unit "worker").world with
    state := (Operation.enqueue samplePrepared 5 5).run (State.new "worker") }

/-- A writer that takes the chunk to the sink and the capsule after it. -/
def releasing := solo deliveryAnswer 20 enqueuedDelivery (writerSteps 3 none)

theorem releasing_committed : (releasing.2.1.state.phase? 1 == some .committed &&
    releasing.2.1.sink.any fun write => write.bytes == sampleCapsule.bytes &&
      decide (write.bytes.length ≤ write.answer.taken)) = true := by
  decide +kernel

theorem deliveryAnswer_answers (w : Transport) (c : WriterCall) (sound : w.state.Sound) :
    c.Answers w (deliveryAnswer w c).1 (deliveryAnswer w c).2 := by
  cases c with
  | expire =>
    obtain ⟨t, expired⟩ := sound.expire_returns fun _ => 5
    have same : (w.state.expire fun _ => 5).getD w.state = t := by rw [expired, Option.getD_some]
    rw [deliveryAnswer, same]
    exact .expire _ t expired
  | stopped => exact .stopped
  | popFront => exact .popFront
  | active id => exact .active id 5 _ _ rfl
  | write chunk => exact .write chunk _
  | release id => exact .release id 5 5 _ _ _ rfl
  | failTransport => exact .failTransport

theorem releasing_reached : ∃ labels, Steps (Step (deliveryRules Unit)) (newDelivery Unit "worker")
    labels ⟨releasing.2.1, fun _ => .live releasing.2.2⟩ := by
  have sound : enqueuedDelivery.state.Sound := by
    rcases (Transport.accounted_new "worker").sound.operation (.enqueue samplePrepared 5 5)
      with idles | ⟨_, _, booked⟩
    · exact idles.sound
    · exact (booked.keeps (Transport.accounted_new "worker").sound).sound
  have queued : Step (deliveryRules Unit) (newDelivery Unit "worker")
      (.environment (.enqueue samplePrepared 5 5)) ⟨enqueuedDelivery, fun _ => .idle⟩ :=
    .environment _ _ _ rfl
  have started : Step (deliveryRules Unit) ⟨enqueuedDelivery, fun _ => .idle⟩ (.started ()) _ :=
    step_started rfl ⟨3, rfl⟩
  have alone : Steps (Step (deliveryRules Unit)) ⟨enqueuedDelivery, _⟩ _ ⟨releasing.2.1, _⟩ :=
    steps_solo_of (P := fun w => w.state.Sound) (i := ())
      (fun w c sound =>
        have answered := deliveryAnswer_answers w c sound
        ⟨answered, ((answered.transportStep sound).keeps sound).sound⟩)
      20 (writerSteps 3 none) (fun _ => .idle) sound
  exact ⟨_, .cons queued (.cons started alone)⟩

/-- The capsule of a delivery is out, its outcome is final and its key is gone. -/
theorem delivery_runs_released :
    (∃ write ∈ releasing.2.1.sink, write.Completes 1) ∧ 1 ∉ releasing.2.1.state.permits := by
  obtain ⟨committed, out⟩ := (Bool.and_eq_true _ _).mp releasing_committed
  constructor
  · obtain ⟨write, member, whole⟩ := List.any_eq_true.mp out
    simp only [Bool.and_eq_true, beq_iff_eq, decide_eq_true_eq] at whole
    exact ⟨write, member, ⟨sampleCapsule, rfl, whole.1⟩, whole.2⟩
  · obtain ⟨_, steps⟩ := releasing_reached
    rw [(delivery_runs "worker" steps).1 1, beq_iff_eq.mp committed]
    decide

end KeyRack.Worker
