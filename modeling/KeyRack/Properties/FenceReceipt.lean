import KeyRack.Properties.DeliveryRuns

/-!
# What a fence reports

A fence that returns speaks about all releases of the past: each result that was
accepted either has its capsule out, once, or will never have one.
-/
namespace KeyRack.Worker

open Assoc Fallible Process Stateful Trace

/-- The sink has accepted the capsule once, and taken nothing of any other attempt. -/
def ReleasedOnce (sink : List Write) (id : Nat) : Prop :=
  ∃ (n : Nat) (write : Write), sink[n]? = some write ∧ write.IsCapsule id ∧
    write.outcome = .ok true ∧ ∀ (m : Nat) (other : Write), sink[m]? = some other →
      other.IsCapsule id → m ≠ n → other.answer.taken = 0

def NeverReleased (sink : List Write) (id : Nat) : Prop :=
  ∀ write ∈ sink, write.IsCapsule id → write.outcome ≠ .ok true ∧ write.answer.taken = 0

/-! ### Fences -/

section
variable {σ τ : Type} {owner' : σ} {s t : State}

theorem fence_ok
    (ran : fence worker generation apply (owner, s) = .ok (observation, disposition) (owner', t)) :
    t = s.fence ∧ s.fence.disposition = .ok disposition := by
  simp only [fence, get_bind, check_bind] at ran
  split at ran
  next =>
    cases applied : apply owner with
    | error =>
      rw [applied] at ran
      cases ran
    | ok =>
      rw [applied] at ran
      simp only [set_bind, check_bind] at ran
      split at ran
      next reported =>
        cases ran
        exact ⟨rfl, reported⟩
      next => cases ran
  next => cases ran

/-- A fence whose owner did not apply it leaves the transport alone. -/
theorem fence_refused (ran : fence worker generation apply (owner, s) = .error e (owner', t))
    (refused : s.fenceable worker generation = false ∨ ∃ e owner', apply owner = .error e owner') :
    t = s := by
  simp only [fence, get_bind, check_bind] at ran
  split at ran
  next fenceable =>
    rcases refused with refused | ⟨e, _, failed⟩
    · simp [refused] at fenceable
    · rw [failed] at ran
      cases ran
      rfl
  next =>
    cases ran
    rfl

theorem State.disposition_ok {disposition : InFlightDisposition}
    (reported : s.disposition = .ok disposition) :
    (∀ id o, s.outcomes.lookup id = some o → o.phase = .committed ∨ o.phase = .suppressed) ∧
      (disposition = .drained ↔ ∀ id o, s.outcomes.lookup id = some o → o.phase = .committed) := by
  simp only [State.disposition, eq_ok] at reported
  obtain ⟨_, settled, stated⟩ := reported
  have ended (id : Nat) (o : Outcome) (stored : s.outcomes.lookup id = some o) :
      o.phase = .committed ∨ o.phase = .suppressed := by
    have member : o ∈ s.outcomes.values := FiniteMap.mem_values.mpr ⟨id, stored⟩
    simp only [not_or, List.any_eq_true, not_exists, not_and] at settled
    have neither := settled.2 o member
    cases phase : o.phase with
    | committed => exact Or.inl rfl
    | suppressed => exact Or.inr rfl
    | pending | indeterminate => simp [phase] at neither
  apply And.intro ended
  split at stated
  next cancelled =>
    obtain ⟨o, member, suppressed⟩ := List.any_eq_true.mp cancelled
    obtain ⟨id, stored⟩ := FiniteMap.mem_values.mp member
    constructor
    · intro drained
      rw [← stated] at drained
      cases drained
    · intro all
      rw [all id o stored] at suppressed
      cases suppressed
  next none =>
    apply iff_of_true stated.symm
    intro id o stored
    rcases ended id o stored with committed | suppressed
    · exact committed
    · have member : o ∈ s.outcomes.values := FiniteMap.mem_values.mpr ⟨id, stored⟩
      exact absurd (List.any_eq_true.mpr ⟨o, member, by simp [suppressed]⟩) none

end

/-! ### Accepted results -/

section
variable {ι : Type} [DecidableEq ι] {s t : DeliverySystem ι} {labels : List (DeliveryLabel ι)}

/-- The run accepts a result under this number. -/
def AcceptedIn (start : DeliverySystem ι) (labels : List (DeliveryLabel ι))
    (s : DeliverySystem ι) (id : Nat) : Prop :=
  ∃ before s₁ op s₂ later, labels = before ++ .environment op :: later ∧
    Steps (Step (deliveryRules ι)) start before s₁ ∧ op.Accepts s₁.world.state id ∧
    Step (deliveryRules ι) s₁ (.environment op) s₂ ∧ Steps (Step (deliveryRules ι)) s₂ later s

theorem AcceptedIn.append {id : Nat}
    (accepted : AcceptedIn start labels s id) (step : Step (deliveryRules ι) s label t) :
    AcceptedIn start (labels ++ [label]) t id := by
  obtain ⟨before, s₁, op, s₂, later, rfl, first, accepts, accepting, rest⟩ := accepted
  refine ⟨before, s₁, op, s₂, later ++ [label], by simp, first, accepts, accepting, ?_⟩
  exact rest.append (.cons step (.nil t))

theorem acceptedIn_of_mem (accounted : start.world.Accounted)
    (fresh : ∀ id, id ∉ start.world.state.outcomes)
    (steps : Steps (Step (deliveryRules ι)) start labels s) :
    ∀ id, id ∈ s.world.state.outcomes → AcceptedIn start labels s id := by
  have held := steps.history (P := fun past s => Steps (Step (deliveryRules ι)) start past s ∧
      s.world.Accounted ∧ ∀ id, id ∈ s.world.state.outcomes → AcceptedIn start past s id)
    (fun past s _ t step holds => by
      obtain ⟨run, accounted, known⟩ := holds
      obtain ⟨_, move, named⟩ := deliveryStep_transport step accounted.sound
      refine ⟨run.append (.cons step (.nil t)), accounted.step move, fun id member => ?_⟩
      rcases move.ids accounted.sound member with old | new
      · exact (known id old).append step
      · obtain ⟨op, rfl, accepts⟩ := named id new
        exact ⟨past, s, op, t, [], rfl, run, accepts, step, .nil t⟩)
    ⟨.nil start, accounted, fun id member => absurd member (fresh id)⟩
  exact held.2.2

theorem mem_of_acceptedIn {id : Nat}
    (accounted : start.world.Accounted) (accepted : AcceptedIn start labels s id) :
    id ∈ s.world.state.outcomes := by
  obtain ⟨_, _, _, _, _, rfl, first, accepts, accepting, rest⟩ := accepted
  have accounted := deliverySteps_accounted first accounted
  have after := deliveryStep_accounted accepting accounted
  apply (deliverySteps_moves rest after).known
  obtain ⟨prepared, now, now', _, rfl, ran, rfl⟩ := accepts
  cases accepting with
  | environment _ _ changed =>
    rw [changed]
    rcases enqueue_cases accounted.sound prepared now now' with
      ⟨e, t, failed, _⟩ | ⟨_, t, ok, booked⟩
    · rw [ran] at failed
      cases failed
    · rw [ran] at ok
      cases ok
      obtain ⟨a, outcomes⟩ := booked.outcomes
      simp only [Operation.run, ran, Stateful.after, outcomes]
      rw [booked.next]
      exact (AList.mem_insert _).mpr (Or.inl rfl)

end

/-! ### Receipts -/

section
variable {w : Transport} {disposition : InFlightDisposition}

theorem Transport.Accounted.fenced (accounted : w.Accounted) :
    Transport.Accounted { w with state := w.state.fence } := accounted.idles accounted.sound.fence

variable (accounted : w.Accounted) (reported : w.state.fence.disposition = .ok disposition)
include accounted reported

/-- After a fence that returns, every write of a capsule went through or was refused whole. -/
theorem Transport.Accounted.unfailed : ∀ write ∈ w.sink, ∀ id, write.IsCapsule id →
    ∃ sent, write.outcome = .ok sent := by
  intro write member id isCapsule
  cases outcome : write.outcome with
  | ok sent => exact ⟨sent, rfl⟩
  | error =>
    have settles : write.Settles id := ⟨isCapsule, by simp [outcome]⟩
    obtain ⟨o, stored, phase⟩ := accounted.fenced.ended write member id settles
    rw [outcome] at phase
    have ended := (State.disposition_ok reported).1 id o stored
    rw [phase] at ended
    rcases ended with committed | suppressed
    · cases committed
    · cases suppressed

variable {id : Nat}

theorem Transport.Accounted.committed_once
    (stored : w.state.fence.outcomes.lookup id = some o) (committed : o.phase = .committed) :
    ReleasedOnce w.sink id := by
  obtain ⟨write, member, isCapsule, accepted⟩ := accounted.fenced.committed id o stored committed
  obtain ⟨n, at_n⟩ := List.mem_iff_getElem?.mp member
  refine ⟨n, write, at_n, isCapsule, accepted, ?_⟩
  intro m other at_m another apart
  obtain ⟨sent, outcome⟩ := accounted.unfailed reported other (List.mem_of_getElem? at_m) id another
  cases sent with
  | false => exact Write.taken_of_retried outcome
  | true =>
    have same := accounted.unique at_m at_n ⟨another, by simp [outcome]⟩
      ⟨isCapsule, by simp [accepted]⟩
    exact absurd same apart

theorem Transport.Accounted.suppressed_never
    (stored : w.state.fence.outcomes.lookup id = some o) (suppressed : o.phase = .suppressed) :
    NeverReleased w.sink id := by
  intro write member isCapsule
  obtain ⟨sent, outcome⟩ := accounted.unfailed reported write member id isCapsule
  cases sent with
  | false => exact ⟨by simp [outcome], Write.taken_of_retried outcome⟩
  | true =>
    obtain ⟨_, stored', phase⟩ :=
      accounted.fenced.ended write member id ⟨isCapsule, by simp [outcome]⟩
    rw [stored] at stored'
    cases stored'
    rw [outcome, suppressed] at phase
    cases phase

omit accounted reported in
theorem ReleasedOnce.not_never (released : ReleasedOnce sink id) : ¬NeverReleased sink id := by
  obtain ⟨n, write, at_n, isCapsule, accepted, _⟩ := released
  intro never
  exact (never write (List.mem_of_getElem? at_n) isCapsule).1 accepted

end

section
variable {ι : Type} [DecidableEq ι] {s : DeliverySystem ι} {labels : List (DeliveryLabel ι)}

/-- A fence that returns has each accepted result either released once, or cancelled for
    good; it reports them all drained exactly if none is cancelled. A fence that its owner
    does not apply changes nothing. -/
theorem fence_receipt (worker : String)
    (steps : Steps (Step (deliveryRules ι)) (newDelivery ι worker) labels s) {σ τ : Type}
    (worker' : String) (generation : Nat) (apply : EStateM Error σ τ) (owner : σ) :
    (∀ observation disposition owner' fenced,
      fence worker' generation apply (owner, s.world.state) =
        .ok (observation, disposition) (owner', fenced) →
      (∀ id, AcceptedIn (newDelivery ι worker) labels s id →
        ReleasedOnce s.world.sink id ∨
        NeverReleased s.world.sink id ∧ ∀ more t, Steps (Step (deliveryRules ι))
          ⟨{ s.world with state := fenced }, s.threads⟩ more t →
          ∃ new, t.world.sink = s.world.sink ++ new ∧ ∀ write ∈ new, ¬write.IsCapsule id) ∧
      (∀ write ∈ s.world.sink, ∀ id, write.IsCapsule id → ∃ sent, write.outcome = .ok sent) ∧
      (disposition = .drained ↔ ∀ id, AcceptedIn (newDelivery ι worker) labels s id →
        ReleasedOnce s.world.sink id)) ∧
    ∀ e owner' before after, fence worker' generation apply (owner, before) =
        .error e (owner', after) →
      (before.fenceable worker' generation = false ∨ ∃ e owner', apply owner = .error e owner') →
      after = before := by
  have start := Transport.accounted_new worker
  have accounted := deliverySteps_accounted steps start
  refine ⟨?_, fun e _ _ _ ran refused => fence_refused ran refused⟩
  intro _ _ _ _ ran
  obtain ⟨rfl, reported⟩ := fence_ok ran
  obtain ⟨ended, drained⟩ := State.disposition_ok reported
  have idles := accounted.sound.fence
  have known (id : Nat) (accepted : AcceptedIn (newDelivery ι worker) labels s id) :
      ∃ o, s.world.state.fence.outcomes.lookup id = some o :=
    FiniteMap.mem_iff.mp (idles.moves.known id (mem_of_acceptedIn start accepted))
  refine ⟨?_, accounted.unfailed reported, ?_⟩
  · intro id accepted
    obtain ⟨o, stored⟩ := known id accepted
    rcases ended id o stored with committed | suppressed
    · exact Or.inl (accounted.committed_once reported stored committed)
    · right
      refine ⟨accounted.suppressed_never reported stored suppressed, fun _ t later => ?_⟩
      obtain ⟨new, sink, plain⟩ := deliverySteps_closed later accounted.fenced
        (s.world.state.policy.closed_fence)
      exact ⟨new, sink, fun write member => plain write member id⟩
  · rw [drained]
    constructor
    · intro all id accepted
      obtain ⟨o, stored⟩ := known id accepted
      exact accounted.committed_once reported stored (all id o stored)
    · intro released id o stored
      rcases ended id o stored with committed | suppressed
      · exact committed
      · have member := idles.ids id (FiniteMap.mem_iff.mpr ⟨o, stored⟩)
        have accepted := acceptedIn_of_mem start (fun _ member => by cases member) steps id member
        exact absurd (accounted.suppressed_never reported stored suppressed)
          (released id accepted).not_never

end

theorem releasing_fenced : ((releasing.2.1.state.phase? 1).isSome &&
    match fence "worker" 2 (pure () : EStateM Error Unit Unit) ((), releasing.2.1.state) with
    | .ok (_, disposition) _ => disposition == .drained
    | .error _ _ => false) = true := by
  decide +kernel

/-- The delivery went out before the fence, which says so. -/
theorem fence_receipt_drained : ReleasedOnce releasing.2.1.sink 1 := by
  obtain ⟨known, drained⟩ := (Bool.and_eq_true _ _).mp releasing_fenced
  obtain ⟨_, steps⟩ := releasing_reached
  have receipt := (fence_receipt "worker" steps "worker" 2 (pure () : EStateM Error Unit Unit)
    ()).1
  have accepted := acceptedIn_of_mem (Transport.accounted_new "worker")
    (fun _ member => by cases member) steps 1
  split at drained
  next observation disposition after ran =>
    apply (receipt observation disposition after.1 after.2 ran).2.2.mp (beq_iff_eq.mp drained)
    apply accepted
    rw [State.phase?, Option.isSome_map, AList.lookup_isSome] at known
    exact known
  next => cases drained

end KeyRack.Worker
