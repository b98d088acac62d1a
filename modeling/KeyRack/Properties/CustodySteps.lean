import KeyRack.Properties.WorkerSteps

/-!
# What a revocation and a creation do

A revocation leaves the worker alone or ends it, and its transport with it. A creation
is refused, or its attempt is consumed for good; evidence comes at one end only, after
four checks of the grant.
-/
namespace KeyRack.CryptoWorker

open Custody Fallible Process Stateful
open KeyRack.Worker (Error State)

variable {w : Worker}

/-! ### Revocation -/

theorem applyRevocation_eq (command : RevocationCommand) (now : Nat) (w : Worker) :
    applyRevocation command now w = match w.checkRevocation command now with
      | .error e => .error e w
      | .ok _ => .ok w.observedLeases
        { w with generation := command.authority.generation, fenced := true, resident := ∅ } := by
  simp only [applyRevocation, get_bind, check_bind]
  cases w.checkRevocation command now <;> rfl

theorem applyRevocation_cases (command : RevocationCommand) (now : Nat) (w : Worker) :
    (∃ e, applyRevocation command now w = .error e w) ∨
      applyRevocation command now w = .ok w.observedLeases
        { w with generation := command.authority.generation, fenced := true, resident := ∅ } ∧
      w.fenced = false := by
  have inverted := applyRevocation_eq command now w
  cases checked : w.checkRevocation command now with
  | error e =>
    rw [checked] at inverted
    exact .inl ⟨e, inverted⟩
  | ok =>
    rw [checked] at inverted
    refine .inr ⟨inverted, ?_⟩
    simp only [Worker.checkRevocation, eq_ok] at checked
    obtain ⟨_, _, _, _, _, _, _, _, _, _, current⟩ := checked
    simp only [not_or, Bool.not_eq_true] at current
    exact current.1

theorem fence_apply {σ τ : Type} (worker : String) (generation : Nat)
    (apply : EStateM Error σ τ) (owner : σ) (s : State) :
    (s.fenceable worker generation = false ∧
      after (KeyRack.Worker.fence worker generation apply (owner, s)) = (owner, s)) ∨
    s.fenceable worker generation = true ∧
      (after (KeyRack.Worker.fence worker generation apply (owner, s))).1 =
        after (apply owner) := by
  simp only [KeyRack.Worker.fence, get_bind, check_bind, refuseIf]
  cases fenceable : s.fenceable worker generation with
  | false => exact .inl ⟨rfl, rfl⟩
  | true =>
    right
    apply And.intro rfl
    cases applied : apply owner with
    | error => rfl
    | ok =>
      cases s.fence.disposition <;> rfl

/-- Under the lock, the worker is revoked or left alone. -/
theorem fence_revocation (w : Worker) (s : State) (command : RevocationCommand) (now : Nat)
    (after : (after (KeyRack.Worker.fence w.instance
      command.authority.generation.get.val (applyRevocation command now) (w, s))).1 = t) :
    (t = w ∧ ∀ leases u, s.fenceable w.instance command.authority.generation.get.val = true →
      applyRevocation command now w ≠ .ok leases u) ∨
    ∃ leases, s.fenceable w.instance command.authority.generation.get.val = true ∧
      applyRevocation command now w = .ok leases t := by
  rcases fence_apply w.instance command.authority.generation.get.val
    (applyRevocation command now) w s with ⟨refused, left⟩ | ⟨fenceable, left⟩
  · left
    rw [left] at after
    refine ⟨after.symm, fun leases u fenceable => ?_⟩
    rw [refused] at fenceable
    cases fenceable
  · rw [left] at after
    rcases applyRevocation_cases command now w with ⟨e, failed⟩ | ⟨applied, _⟩
    · left
      rw [failed] at after
      refine ⟨after.symm, fun _ u _ applied => ?_⟩
      rw [failed] at applied
      cases applied
    · right
      rw [applied] at after
      subst after
      exact ⟨_, fenceable, applied⟩

section
variable [Sha256] [Ed25519]

/-- The transport lets the worker apply the command. -/
def Worker.Applies (w : Worker) (bytes : Bytes) (events : List WorkerCallEvent) (t : Worker) :
    Prop :=
  ∃ evidence command s now leases rest, w.authenticated bytes = .ok (evidence, command) ∧
    events = ⟨.lock, s⟩ :: readAt now :: rest ∧
    s.fenceable w.instance command.authority.generation.get.val = true ∧
    applyRevocation command now w = .ok leases t

/-- A revocation is applied, whether or not its evidence is returned, or it does nothing. -/
theorem revoke_holds (bytes : Bytes) : Holds Ordinary [] w (fun events _ t => Quiet events ∧
      (t = w ∨ w.Applies bytes events t) ∧ ∀ u, w.Applies bytes events u → t = u)
      (revoke bytes) := by
  apply holds_get_then
  refine holds_check_then (fun e _ => ⟨quiet_nil, .inl rfl, ?_⟩) fun read authentic => ?_
  · rintro u ⟨_, _, s, _, _, _, _, impossible, _⟩
    cases impossible
  obtain ⟨evidence, command⟩ := read
  refine holds_ask_then ⟨by rintro ⟨⟩, rfl⟩ fun s => ?_
  refine holds_ask_then ⟨by rintro ⟨⟩, rfl⟩ fun now => ?_
  have ended (state : State) (r : Unit) (t : Worker) (after : (after
      (KeyRack.Worker.fence w.instance command.authority.generation.get.val
        (applyRevocation command now) (w, s))).1 = t) :
      Quiet [⟨.lock, s⟩, readAt now, ⟨.unlock state, r⟩] ∧
        (t = w ∨ w.Applies bytes [⟨.lock, s⟩, readAt now, ⟨.unlock state, r⟩] t) ∧
        ∀ u, w.Applies bytes [⟨.lock, s⟩, readAt now, ⟨.unlock state, r⟩] u → t = u := by
    refine ⟨by simp [Quiet, WorkerCall.isCipher], ?_⟩
    rcases fence_revocation w s command now after with
      ⟨rfl, never⟩ | ⟨leases, fenceable, applied⟩
    · refine ⟨.inl rfl, ?_⟩
      rintro u ⟨_, _, _, _, leases, _, again, same, fenceable, applied⟩
      rw [authentic] at again
      cases again
      cases same
      exact absurd applied (never leases u fenceable)
    · refine ⟨.inr ⟨evidence, command, s, now, leases, _, authentic, rfl, fenceable, applied⟩, ?_⟩
      rintro u ⟨_, _, _, _, _, _, again, same, _, applied'⟩
      rw [authentic] at again
      cases again
      cases same
      rw [applied] at applied'
      cases applied'
      rfl
  cases ran : KeyRack.Worker.fence w.instance command.authority.generation.get.val
    (applyRevocation command now) (w, s) with
  | error e after =>
    rw [ran] at ended
    apply holds_set_then
    exact holds_ask_then ⟨by rintro ⟨⟩, rfl⟩ fun r => ended after.2 r after.1 rfl
  | ok _ after =>
    rw [ran] at ended
    apply holds_set_then
    refine holds_ask_then ⟨by rintro ⟨⟩, rfl⟩ fun r => ?_
    refine holds_check_then (fun e _ => ended after.2 r after.1 rfl) fun _ _ => ?_
    refine holds_check_then (fun e _ => ended after.2 r after.1 rfl) fun _ _ => ?_
    exact holds_check_then (fun e _ => ended after.2 r after.1 rfl) fun _ _ => ended after.2 r
      after.1 rfl

end

/-! ### Creation -/

variable [Sha256]

/-- A reservation is made once, before anything else. -/
theorem reserveCreation_holds (plan : CreationPlan) (context : CustodyContext) :
    Holds Ordinary [] w (fun events _ t => events = [] ∧ (t = w ∨
      w.creation = none ∧ w.fenced = false ∧ ∃ expected,
        t = { w with creation := some ⟨plan, context, expected, .ready⟩ }))
      (reserveCreation plan context) := by
  apply holds_get_then
  refine holds_check_then (fun e _ => ⟨rfl, .inl rfl⟩) fun _ first => ?_
  refine holds_check_then (fun e _ => ⟨rfl, .inl rfl⟩) fun _ _ => ?_
  refine holds_check_then (fun e _ => ⟨rfl, .inl rfl⟩) fun _ _ => ?_
  refine holds_check_then (fun e _ => ⟨rfl, .inl rfl⟩) fun _ _ => ?_
  refine holds_check_then (fun e _ => ⟨rfl, .inl rfl⟩) fun expected _ => ?_
  have unreserved := refuseIf_eq_ok.mp first
  simp only [not_or, Bool.not_eq_true, Option.isSome_eq_false_iff, Option.isNone_iff_eq_none,
    ne_eq, not_not] at unreserved
  exact ⟨rfl, .inr ⟨unreserved.1, unreserved.2.2, expected, rfl⟩⟩

/-- A creation may call the source, and does not panic. -/
def Generating (_ : List WorkerCallEvent) (c : WorkerCall) : Prop := c ≠ .panic

/-- The worker with its attempt in this state, under the sequence of the grant. -/
def Worker.attempted (w : Worker) (r : Reservation) (grant : AuthorityGrant)
    (state : AttemptState) : Worker :=
  { w with creation := some { r with state }, sequence := grant.sequence.get.val }

theorem checkCreation_holds (grant : AuthorityGrant) : Holds Generating past w
    (fun later result t => ∃ now now', later = past ++ [readAt now, readAt now'] ∧ t = w ∧
      (result = .ok () → w.creationGranted grant now now' = .ok ())) (checkCreation grant) := by
  refine holds_ask_then nofun fun now => ?_
  refine holds_ask_then nofun fun now' => ?_
  rw [List.append_assoc, List.singleton_append]
  apply holds_get_then
  apply holds_check.mpr
  exact ⟨now, now', rfl, rfl, id⟩

theorem unfenced_of_granted
    (granted : w.creationGranted grant now now' = .ok ()) : w.fenced = false := by
  simp only [Worker.creationGranted, eq_ok] at granted
  obtain ⟨_, _, _, _, _, _, _, _, _, _, unfenced⟩ := granted
  simpa using unfenced

/-- After the attempt is consumed, the checks are still those of the reservation. -/
theorem recheck_holds (grant grant' : AuthorityGrant) (reserved : w.creation = some r) :
    Holds Generating past (w.attempted r grant' .consumed) (fun later result t => ∃ now now',
      later = past ++ [readAt now, readAt now'] ∧ t = w.attempted r grant' .consumed ∧
      (result = .ok () → w.creationGranted grant now now' = .ok ())) (checkCreation grant) := by
  apply (checkCreation_holds grant).mono
  rintro _ _ t ⟨now, now', rfl, rfl, passed⟩
  refine ⟨now, now', rfl, rfl, fun ok => ?_⟩
  have granted := passed ok
  simp only [Worker.creationGranted, Worker.attempted, reserved] at granted ⊢
  exact granted

variable [Ed25519]

/-- The calls for new material among these. -/
def generations (events : List WorkerCallEvent) : List WorkerCallEvent :=
  events.filter (·.1.isGenerate)

/-- The attempt has begun: the reservation was ready, and now it is not. -/
structure Begun (w : Worker) (bytes : Bytes) (r : Reservation) (evidence : Evidence AuthorityGrant)
    (grant : AuthorityGrant) : Prop where
  authentic : w.authenticated bytes = .ok (evidence, grant)
  reserved : w.creation = some r
  ready : r.state = .ready
  unfenced : w.fenced = false
  newer : w.sequence < grant.sequence.get.val

/-- How a creation ends. -/
inductive Generated (w : Worker) (bytes : Bytes) :
    List WorkerCallEvent → Except Error CreationEvidence → Worker → Prop where
  | refused (quiet : Quiet events) (unasked : generations events = []) :
      Generated w bytes events (.error e) w
  | consumed (quiet : Quiet events) (once : (generations events).length ≤ 1)
      (begun : Begun w bytes r evidence grant) :
      Generated w bytes events (.error e) (w.attempted r grant .consumed)
  | complete {a a' b b' c c' d d' : Nat} {envelopeRef : WrappingIdentifier}
      (begun : Begun w bytes r evidence grant)
      (granted : ∀ times ∈ [(a, a'), (b, b'), (c, c'), (d, d')],
        w.creationGranted grant times.1 times.2 = .ok ())
      (named : envelopeRef.asStr = r.plan.envelopeRef)
      (resulted : w.creationResult r material = .ok result) :
      Generated w bytes [readAt a, readAt a', ⟨.prepareGeneration r.context, .ok ()⟩,
        readAt b, readAt b', ⟨.generateWrapped r.context envelopeRef, .ok material⟩,
        readAt c, readAt c', readAt d, readAt d', ⟨.activateGenerated, ()⟩]
        (.ok ⟨evidence, result, material⟩) (w.attempted r grant .complete)

attribute [local simp] Quiet generations WorkerCall.isCipher WorkerCall.isGenerate in
theorem generate_holds (bytes : Bytes) :
    Holds Generating [] w (Generated w bytes) (generate bytes) := by
  apply holds_get_then
  refine holds_check_then (fun e _ => .refused quiet_nil rfl) fun read authentic => ?_
  obtain ⟨evidence, grant⟩ := read
  apply (checkCreation_holds grant).bind
  · rintro _ e t ⟨a, _, rfl, rfl, _⟩
    exact .refused (by simp) (by simp)
  rintro later _ t ⟨a, a', rfl, rfl, passed⟩
  have first := passed rfl
  have refused (e : Error) : Generated t bytes ([] ++ [readAt a, readAt a']) (.error e) t :=
    .refused (by simp) (by simp)
  apply holds_get_then
  refine holds_check_then (fun e _ => refused e) fun r found => ?_
  have reserved : t.creation = some r := okOr_eq_ok.mp found
  refine holds_check_then (fun e _ => refused e) fun _ admitted => ?_
  have fresh := refuseIf_eq_ok.mp admitted
  simp only [not_or, ne_eq, not_not, not_le] at fresh
  have begun : Begun t bytes r evidence grant :=
    ⟨authentic, reserved, fresh.1, unfenced_of_granted first, fresh.2⟩
  have consumed (events : List WorkerCallEvent) (e : Error) (quiet : Quiet events)
      (once : (generations events).length ≤ 1) :
      Generated t bytes events (.error e) (t.attempted r grant .consumed) :=
    .consumed quiet once begun
  -- from here on the attempt is consumed, whatever happens
  apply holds_set_then
  refine holds_check_then (fun e _ => consumed _ e (by simp) (by simp)) fun envelopeRef named => ?_
  refine holds_ask_then (by rintro ⟨⟩) fun prepared => ?_
  refine holds_check_then (fun e _ => consumed _ e (by simp) (by simp)) fun _ ready => ?_
  cases (ready : prepared = .ok ())
  apply (recheck_holds grant grant reserved).bind
  · rintro _ e u ⟨b, _, rfl, rfl, _⟩
    exact consumed _ e (by simp) (by simp)
  rintro later _ u ⟨b, b', rfl, rfl, passed⟩
  have second := passed rfl
  refine holds_ask_then (by rintro ⟨⟩) fun generated => ?_
  refine holds_check_then (fun e _ => consumed _ e (by simp) (by simp)) fun material made => ?_
  cases (made : generated = .ok material)
  apply (recheck_holds grant grant reserved).bind
  · rintro _ e u ⟨c, _, rfl, rfl, _⟩
    exact consumed _ e (by simp) (by simp)
  rintro later _ u ⟨c, c', rfl, rfl, passed⟩
  have third := passed rfl
  apply holds_get_then
  refine holds_check_then (fun e _ => consumed _ e (by simp) (by simp)) fun r' again => ?_
  cases (okOr_eq_ok.mp again)
  refine holds_check_then (fun e _ => consumed _ e (by simp) (by simp)) fun result resulted => ?_
  apply (recheck_holds grant grant reserved).bind
  · rintro _ e u ⟨d, _, rfl, rfl, _⟩
    exact consumed _ e (by simp) (by simp)
  rintro _ _ u ⟨d, d', rfl, rfl, passed⟩
  have fourth := passed rfl
  apply holds_get_then
  refine holds_check_then (fun e _ => consumed _ e (by simp) (by simp)) fun _ again => ?_
  cases (okOr_eq_ok.mp again)
  apply holds_set_then
  refine holds_ask_then (by rintro ⟨⟩) fun _ => ?_
  exact .complete begun (by simp [first, second, third, fourth])
    (WrappingIdentifier.new_eq_ok.mp (mapErr_eq_ok.mp named)) resulted

end KeyRack.CryptoWorker
