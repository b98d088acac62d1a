import KeyRack.Worker.Custody

/-!
# What one operation of a worker does

Each part of an operation is described once, at all its ends: the calls it makes, what
it returns and what becomes of the worker. The operations themselves are put together
from these descriptions.
-/
namespace KeyRack.CryptoWorker

open Assoc Custody Fallible Process List
open KeyRack.Worker (Error State)

def WorkerCall.isCipher : WorkerCall → Bool
  | .encrypt _ _ _ _ | .decrypt _ _ _ _ => true
  | _ => false

def WorkerCall.isGenerate : WorkerCall → Bool
  | .generateWrapped _ _ => true
  | _ => false

/-- What operations other than a creation may call; a panic is never among it. -/
def Ordinary (_ : List WorkerCallEvent) (c : WorkerCall) : Prop :=
  c ≠ .panic ∧ c.isGenerate = false

/-- No cipher ran. -/
def Quiet (events : List WorkerCallEvent) : Prop := ∀ event ∈ events, event.1.isCipher = false

theorem quiet_nil : Quiet [] := by simp [Quiet]

theorem Quiet.append (first : Quiet a) (second : Quiet b) : Quiet (a ++ b) := by
  intro event member
  rcases mem_append.mp member with before | after
  · exact first event before
  · exact second event after

/-- What was called in between. -/
def Quietly (past later : List WorkerCallEvent) : Prop := ∃ new, later = past ++ new ∧ Quiet new

theorem Quietly.refl : Quietly past past :=
  ⟨[], by simp, quiet_nil⟩

theorem Quietly.call (quietly : Quietly past later) (silent : event.1.isCipher = false) :
    Quietly past (later ++ [event]) := by
  obtain ⟨new, rfl, quiet⟩ := quietly
  exact ⟨new ++ [event], List.append_assoc _ _ _, quiet.append (by simpa [Quiet] using silent)⟩

/-- The clock was read. -/
abbrev readAt (now : Nat) : WorkerCallEvent := ⟨.millis, now⟩

theorem quiet_readAt (now : Nat) : Quiet [readAt now] := by simp [Quiet, WorkerCall.isCipher]

/-! ### Residencies -/

/-- Some residencies are gone. -/
structure Worker.Drops (w t : Worker) : Prop where
  same : t = { w with resident := t.resident }
  size : t.resident.size ≤ w.resident.size
  lookup : ∀ binding r, t.resident.lookup binding = some r → w.resident.lookup binding = some r

theorem Worker.Drops.refl (w : Worker) : w.Drops w := ⟨rfl, le_refl _, fun _ _ found => found⟩

theorem Worker.Drops.trans {w t u : Worker} (first : w.Drops t) (second : t.Drops u) :
    w.Drops u where
  same := by rw [second.same, first.same]
  size := second.size.trans first.size
  lookup binding r found := first.lookup binding r (second.lookup binding r found)

theorem Worker.drops_erase (w : Worker) (binding : Digest) :
    w.Drops { w with resident := w.resident.erase binding } where
  same := rfl
  size := FiniteMap.size_erase_le _ _
  lookup other r found := by
    rw [FiniteMap.lookup_erase_apply] at found
    split at found
    · cases found
    · exact found

theorem Worker.remove_drops (w : Worker) (binding : Digest) : w.Drops (w.remove binding).2 := by
  unfold Worker.remove
  split
  · exact .refl w
  · exact w.drops_erase binding

theorem Worker.lookup_remove (w : Worker) (binding other : Digest) :
    (w.remove binding).2.resident.lookup other =
      if other = binding then none else w.resident.lookup other := by
  unfold Worker.remove
  split
  next absent =>
    split
    next same => rw [same, absent]
    next => rfl
  next => exact FiniteMap.lookup_erase_apply _ _ _

theorem Worker.removeAll_drops (bindings : List Digest) (w : Worker) :
    w.Drops (Worker.removeAll bindings w).2 := by
  induction bindings generalizing w with
  | nil => exact .refl w
  | cons binding _ ih => exact (w.remove_drops binding).trans (ih _)

theorem Worker.lookup_removeAll (bindings : List Digest) (w : Worker) (other : Digest) :
    (Worker.removeAll bindings w).2.resident.lookup other =
      if other ∈ bindings then none else w.resident.lookup other := by
  induction bindings generalizing w with
  | nil => simp [Worker.removeAll]
  | cons binding bindings ih =>
    change (Worker.removeAll bindings (w.remove binding).2).2.resident.lookup other = _
    rw [ih, Worker.lookup_remove]
    by_cases same : other = binding
    · simp [same]
    · simp [same]

theorem Worker.expireAt_drops (w : Worker) (now : Nat) : w.Drops (w.expireAt now).2 :=
  Worker.removeAll_drops _ w

/-- What is resident after an expiry has its deadline ahead, and the rest had not. -/
theorem Worker.lookup_expireAt (w : Worker) (now : Nat) (binding : Digest) :
    (w.expireAt now).2.resident.lookup binding =
      (w.resident.lookup binding).filter fun r => decide (now < r.until) := by
  unfold Worker.expireAt
  rw [Worker.lookup_removeAll]
  have expired (r : Resident) (found : w.resident.lookup binding = some r) :
      binding ∈ (w.resident.entries.filter fun entry => decide (now ≥ entry.2.until)).map (·.1) ↔
        r.until ≤ now := by
    simp only [mem_map, mem_filter, decide_eq_true_eq]
    constructor
    · rintro ⟨⟨key, r'⟩, ⟨member, late⟩, rfl⟩
      have same : w.resident.lookup key = some r' := AList.mem_lookup_iff.mpr member
      rw [found] at same
      cases same
      exact late
    · intro late
      exact ⟨⟨binding, r⟩, ⟨AList.mem_lookup_iff.mp found, late⟩, rfl⟩
  cases found : w.resident.lookup binding with
  | none => simp
  | some r =>
    rw [Option.filter_some]
    by_cases late : r.until ≤ now
    · simp [(expired r found).mpr late, late]
    · have kept : ¬binding ∈ _ := fun member => late ((expired r found).mp member)
      simp [kept, Nat.lt_of_not_le late]

variable {w : Worker}

theorem expire_holds : Holds Ordinary past w (fun later result t =>
    ∃ now, later = past ++ [readAt now] ∧ t = (w.expireAt now).2 ∧
      ∃ cleanups, result = .ok cleanups) expire := by
  refine ⟨⟨nofun, rfl⟩, fun now => ?_⟩
  exact ⟨now, rfl, rfl, _, rfl⟩

theorem checkTime_holds (grant : Grant) : Holds Ordinary past w (fun later result t =>
    ∃ now, later = past ++ [readAt now] ∧ t = w ∧
      (result = .ok () → w.limits.timely grant now = true)) (checkTime grant) := by
  refine holds_ask_then ⟨nofun, rfl⟩ fun now => ?_
  apply holds_get_then
  apply holds_check.mpr
  refine ⟨now, rfl, rfl, fun passed => ?_⟩
  have timely := refuseIf_eq_ok.mp passed
  simpa using timely

/-- A close drops the residency that has the lease, or nothing. -/
theorem closeResidency_holds (lease : LeaseIdentity) (binding : Digest) :
    Holds Ordinary past w (fun later _ t => later = past ∧ w.Drops t)
      (closeResidency lease binding) := by
  apply holds_get_then
  refine holds_check_then (fun e _ => ⟨rfl, .refl w⟩) fun _ _ => ?_
  refine holds_check_then (fun e _ => ⟨rfl, .refl w⟩) fun _ _ => ?_
  exact ⟨rfl, w.remove_drops binding⟩

/-! ### Acceptance -/

section
variable [Sha256] [Ed25519] [AuthorityJson]

/-- The grant that a request carries admits it, and its sequence is consumed. -/
structure Accepted (w : Worker) (signed : Signed) (context : WrappingContext) (grant : Grant)
    (binding : Digest) (t : Worker) : Prop where
  verified : w.verify signed = .ok (.grant grant)
  bound : contextDigest context = .ok binding
  created : w.creationAllowsUse = true
  unfenced : w.fenced = false
  current : grant.generation = w.generation.get.val
  newer : w.sequence < grant.sequence
  consumed : t = { w with sequence := grant.sequence }

theorem accept_holds (signed : Signed) (principal : String) (context : WrappingContext)
    (operation : Operation) (input : Bytes) : Holds Ordinary past w (fun later result t =>
      Quietly past later ∧ match result with
        | .error _ => t = w
        | .ok (grant, binding) => Accepted w signed context grant binding t)
      (accept signed principal context operation input) := by
  have still : Quietly past past := .refl
  refine holds_check_then (fun e _ => ⟨still, rfl⟩) fun _ _ => ?_
  apply holds_get_then
  refine holds_check_then (fun e _ => ⟨still, rfl⟩) fun message verified => ?_
  cases message with
  | fence => exact ⟨still, rfl⟩
  | grant grant =>
    refine holds_check_then (fun e _ => ⟨still, rfl⟩) fun _ bound => ?_
    refine holds_check_then (fun e _ => ⟨still, rfl⟩) fun _ _ => ?_
    apply (checkTime_holds grant).bind
    · rintro _ e t ⟨now, rfl, rfl, _⟩
      exact ⟨still.call rfl, rfl⟩
    · rintro _ _ t ⟨now, rfl, rfl, _⟩
      have read : Quietly past (past ++ [readAt now]) := still.call rfl
      apply holds_get_then
      refine holds_check_then (fun e _ => ⟨read, rfl⟩) fun _ allowed => ?_
      refine holds_check_then (fun e _ => ⟨read, rfl⟩) fun _ admitted => ?_
      have created := refuseIf_eq_ok.mp allowed
      have fresh := refuseIf_eq_ok.mp admitted
      simp only [not_or, Bool.not_eq_true, ne_eq, not_not, not_le] at fresh
      exact ⟨read, verified, bound, by simpa using created, fresh.1, fresh.2.1, fresh.2.2, rfl⟩

end

/-! ### Residencies that begin -/

/-- The residency that an operation uses: it was there, or it is new. -/
inductive Opened (w : Worker) (binding : Digest) (r : Resident) : Worker → Prop where
  | resident (found : w.resident.lookup binding = some r) : Opened w binding r w
  | fresh (absent : w.resident.lookup binding = none)
      (room : w.resident.size < w.limits.residentKeys)
      (counter : r.lease.counter.get.val = w.nextLease + 1) (unused : r.uses = 0) :
      Opened w binding r
        { w with nextLease := w.nextLease + 1, resident := w.resident.insert binding r }

/-- Lease counters were given out, or would have wrapped around. -/
def Worker.Raises (w t : Worker) : Prop :=
  ∃ n, w.nextLease ≤ n ∧ (n ≤ w.nextLease ∨ n ≤ u64Max) ∧ t = { w with nextLease := n }

theorem openResidency_holds (grant : Grant) (context : WrappingContext) (binding : Digest)
    (absent : w.resident.lookup binding = none) : Holds Ordinary past w (fun later result t =>
      Quietly past later ∧ match result with
        | .error _ => w.Raises t
        | .ok _ => ∃ r, Opened w binding r t) (openResidency grant context binding) := by
  have unchanged : w.Raises w := ⟨w.nextLease, le_refl _, .inl (le_refl _), rfl⟩
  apply holds_get_then
  refine holds_check_then (fun e _ => ⟨.refl, unchanged⟩) fun _ room => ?_
  refine holds_ask_then ⟨nofun, rfl⟩ fun now => ?_
  refine holds_ask_then ⟨nofun, rfl⟩ fun opened => ?_
  have asked : Quietly past (past ++ [readAt now] ++ [⟨.openMaterial context, opened⟩]) :=
    (Quietly.refl.call rfl).call rfl
  refine holds_check_then (fun e _ => ⟨asked, unchanged⟩) fun _ _ => ?_
  refine holds_check_then (fun e _ => ⟨asked, unchanged⟩) fun _ _ => ?_
  apply (checkTime_holds grant).bind
  · rintro _ e t ⟨now', rfl, rfl, _⟩
    exact ⟨asked.call rfl, unchanged⟩
  · rintro _ _ t ⟨now', rfl, rfl, _⟩
    have quiet := asked.call (show (readAt now').1.isCipher = false from rfl)
    apply holds_get_then
    refine holds_check_then (fun e _ => ⟨quiet, unchanged⟩) fun n counted => ?_
    obtain ⟨below, rfl⟩ := checkedSucc_eq_some.mp (okOr_eq_ok.mp counted)
    have raised : t.Raises { t with nextLease := t.nextLease + 1 } :=
      ⟨t.nextLease + 1, by omega, .inr (by omega), rfl⟩
    apply holds_set_then
    refine holds_check_then (fun e _ => ⟨quiet, raised⟩) fun _ _ => ?_
    refine holds_check_then (fun e _ => ⟨quiet, raised⟩) fun counter numbered => ?_
    have number : counter.get.val = t.nextLease + 1 := by
      have made := okOr_eq_ok.mp numbered
      unfold NonZeroU64.new at made
      split at made
      · cases made
        exact Nat.mod_eq_of_lt (by unfold u64Max at below; omega)
      · cases made
    refine ⟨quiet, _, .fresh absent ?_ number rfl⟩
    have full := refuseIf_eq_ok.mp room
    omega

theorem materialize_holds (grant : Grant) (context : WrappingContext) (binding : Digest) :
    Holds Ordinary past w (fun later result t =>
      Quietly past later ∧ match result with
        | .error _ => w.Raises t
        | .ok _ => ∃ r, Opened w binding r t) (materialize grant context binding) := by
  apply holds_get_then
  split
  next present =>
    obtain ⟨r, found⟩ := Option.isSome_iff_exists.mp present
    exact ⟨.refl, r, .resident found⟩
  next absent => exact openResidency_holds grant context binding (by simpa using absent)

variable {binding : Digest}

/-- What is opened is resident. -/
theorem Opened.found (opened : Opened w binding r t) : t.resident.lookup binding = some r := by
  cases opened with
  | resident found => exact found
  | fresh => exact AList.lookup_insert _

/-! ### Uses -/

/-- One more use is counted. -/
def Worker.used (w : Worker) (binding : Digest) (r : Resident) : Worker :=
  { w with resident := w.resident.insert binding { r with uses := r.uses + 1 } }

/-- The cipher runs once, and last. -/
theorem cipher_holds (key aad : Bytes) (operation : Operation) (input : Bytes) :
    Holds Ordinary past w (fun later result t => t = w ∧ ∃ new, later = past ++ new ∧
      ∀ output, result = .ok output →
        ∃ before event, new = before ++ [event] ∧ Quiet before ∧ event.1.isCipher = true)
      (cipher key aad operation input) := by
  cases operation with
  | encrypt =>
    refine holds_ask_then ⟨nofun, rfl⟩ fun nonce => ?_
    refine holds_ask_then ⟨nofun, rfl⟩ fun _ => ?_
    have random : Quiet [⟨.nonce, nonce⟩] := by simp [Quiet, WorkerCall.isCipher]
    rw [append_assoc]
    exact holds_check_then (fun e _ => ⟨rfl, _, rfl, nofun⟩) fun _ _ => ⟨rfl, _, rfl, fun _ _ =>
      ⟨_, _, rfl, random, rfl⟩⟩
  | decrypt =>
    refine holds_check_then (fun e _ => ⟨rfl, [], by simp, nofun⟩) fun _ _ => ?_
    refine holds_ask_then ⟨nofun, rfl⟩ fun _ => ?_
    exact ⟨rfl, _, rfl, fun _ _ => ⟨[], _, rfl, quiet_nil, rfl⟩⟩

theorem operate_holds (context : WrappingContext) (operation : Operation) (input : Bytes)
    (found : w.resident.lookup binding = some r) :
    Holds Ordinary past w (fun later result t => ∃ new, later = past ++ new ∧ match result with
      | .error _ => (w.Drops t ∧ Quiet new) ∨
          r.uses < w.limits.usesPerResidency ∧ t = w.used binding r
      | .ok _ => (r.uses < w.limits.usesPerResidency ∧ t = w.used binding r) ∧
          ∃ before event, new = before ++ [event] ∧ Quiet before ∧ event.1.isCipher = true)
      (operate context binding operation input) := by
  apply holds_get_then
  refine holds_check_then (fun e failed => ?_) fun _ present => ?_
  · rw [found] at failed
    cases failed
  rw [found] at present
  cases present
  refine holds_ask_then ⟨nofun, rfl⟩ fun now => ?_
  have read := quiet_readAt now
  split
  · -- past its deadline, the residency is closed
    apply (closeResidency_holds r.lease binding).bind
    · rintro _ e t ⟨rfl, drops⟩
      exact ⟨_, rfl, .inl ⟨drops, read⟩⟩
    · rintro _ _ t ⟨rfl, drops⟩
      exact ⟨_, rfl, .inl ⟨drops, read⟩⟩
  · refine holds_check_then (fun e _ => ⟨_, rfl, .inl ⟨.refl w, read⟩⟩) fun _ admitted => ?_
    have below : r.uses < w.limits.usesPerResidency := by
      have within := refuseIf_eq_ok.mp admitted
      omega
    apply holds_set_then
    refine holds_check_then (fun e _ => ⟨_, rfl, .inr ⟨below, rfl⟩⟩) fun _ _ => ?_
    refine holds_check_then (fun e _ => ⟨_, rfl, .inr ⟨below, rfl⟩⟩) fun _ _ => ?_
    apply (cipher_holds _ _ operation input).mono
    rintro _ result t ⟨rfl, new, rfl, made⟩
    refine ⟨[readAt now] ++ new, append_assoc _ _ _, ?_⟩
    cases result with
    | error => exact .inr ⟨below, rfl⟩
    | ok output =>
      obtain ⟨before, event, rfl, quiet, ran⟩ := made output rfl
      exact ⟨⟨below, rfl⟩, [readAt now] ++ before, event, (append_assoc _ _ _).symm,
        read.append quiet, ran⟩

/-- The entry that was used is still there, so the last look at it does not panic. -/
theorem stillPermitted_holds (grant : Grant) (found : w.resident.lookup binding = some r) :
    Holds Ordinary past w (fun later result t => match result with
      | .error _ => Quietly past later ∧ w.Drops t
      | .ok _ => ∃ now now', later = past ++ [readAt now, readAt now'] ∧ t = w ∧
          w.limits.timely grant now = true ∧ now' < r.until) (stillPermitted grant binding) := by
  apply (checkTime_holds grant).bind
  · rintro _ e t ⟨now, rfl, rfl, _⟩
    exact ⟨.call .refl rfl, .refl t⟩
  · rintro later _ t ⟨now, rfl, rfl, timely⟩
    refine holds_ask_then ⟨nofun, rfl⟩ fun now' => ?_
    rw [append_assoc, singleton_append]
    have reads : Quietly past (past ++ [readAt now, readAt now']) :=
      ⟨_, rfl, (quiet_readAt now).append (quiet_readAt now')⟩
    have present : Holds Ordinary (past ++ [readAt now, readAt now']) t (fun later result u =>
        later = past ++ [readAt now, readAt now'] ∧ result = .ok r ∧ u = t)
        (residentAt binding) := by
      apply holds_get_then
      rw [found]
      exact ⟨rfl, rfl, rfl⟩
    apply present.bind
    · rintro _ e u ⟨_, failed, _⟩
      cases failed
    · rintro later _ u ⟨rfl, same, rfl⟩
      cases same
      split
      · apply (closeResidency_holds r.lease binding).bind
        · rintro _ e v ⟨rfl, drops⟩
          exact ⟨reads, drops⟩
        · rintro _ _ v ⟨rfl, drops⟩
          exact ⟨reads, drops⟩
      next early => exact ⟨now, now', rfl, rfl, timely rfl, Nat.lt_of_not_le early⟩

/-! ### Execution -/

variable [Sha256] [Ed25519] [AuthorityJson]

/-- How an execution ends for a worker whose old residencies have just expired. -/
inductive Executed (w : Worker) (signed : Signed) (context : WrappingContext) :
    List WorkerCallEvent → Except Error Bytes → Worker → Prop where
  | refused (quiet : Quiet events) : Executed w signed context events (.error e) w
  | unopened {binding : Digest} (quiet : Quiet events)
      (accepted : Accepted w signed context grant binding u) (raised : u.nextLease ≤ n)
      (bounded : n ≤ u.nextLease ∨ n ≤ u64Max) :
      Executed w signed context events (.error e) { u with nextLease := n }
  | unused {binding : Digest} (quiet : Quiet events)
      (accepted : Accepted w signed context grant binding u) (opened : Opened u binding r v)
      (drops : v.Drops t) : Executed w signed context events (.error e) t
  | used {binding : Digest} {events : List WorkerCallEvent}
      (accepted : Accepted w signed context grant binding u)
      (opened : Opened u binding r v) (below : r.uses < v.limits.usesPerResidency)
      (drops : (v.used binding r).Drops t)
      (served : ∀ output, result = .ok output → t = v.used binding r ∧ ∃ before event now now',
        events = before ++ [event, readAt now, readAt now'] ∧ event.1.isCipher = true ∧
          w.limits.timely grant now = true ∧ now' < r.until) :
      Executed w signed context events result t

theorem execute_holds (signed : Signed) (principal : String) (context : WrappingContext)
    (operation : Operation) (input : Bytes) : Holds Ordinary [] w (fun events result t =>
      ∃ now, events.head? = some (readAt now) ∧
        Executed (w.expireAt now).2 signed context events result t)
      (execute signed principal context operation input) := by
  apply expire_holds.bind
  · rintro _ e t ⟨_, _, _, _, failed⟩
    cases failed
  rintro later _ _ ⟨now, rfl, rfl, _⟩
  have read := quiet_readAt now
  apply (accept_holds signed principal context operation input).bind
  · rintro _ e t ⟨⟨_, rfl, quiet⟩, rfl⟩
    exact ⟨now, rfl, .refused (read.append quiet)⟩
  rintro later ⟨grant, binding⟩ u ⟨⟨new, rfl, quiet⟩, accepted⟩
  have start := read.append quiet
  apply (materialize_holds grant context binding).bind
  · rintro _ e t ⟨⟨_, rfl, quiet⟩, n, raised, bounded, rfl⟩
    exact ⟨now, rfl, .unopened (start.append quiet) accepted raised bounded⟩
  rintro later _ v ⟨⟨more, rfl, quiet⟩, r, opened⟩
  have ready := start.append quiet
  apply (operate_holds context operation input opened.found).bind
  · rintro _ e t ⟨_, rfl, ⟨drops, quiet⟩ | ⟨below, rfl⟩⟩
    · exact ⟨now, rfl, .unused (ready.append quiet) accepted opened drops⟩
    · exact ⟨now, rfl, .used accepted opened below (.refl _) nofun⟩
  rintro later output t ⟨_, rfl, ⟨below, rfl⟩, before, event, rfl, _, ran⟩
  have found : (v.used binding r).resident.lookup binding = some { r with uses := r.uses + 1 } :=
    AList.lookup_insert _
  apply (stillPermitted_holds grant found).bind
  · rintro _ e t ⟨⟨_, rfl, _⟩, drops⟩
    exact ⟨now, rfl, .used accepted opened below drops nofun⟩
  rintro _ _ t ⟨now₁, now₂, rfl, rfl, timely, early⟩
  have limits : (v.used binding r).limits = (w.expireAt now).2.limits := by
    have consumed := congrArg Worker.limits accepted.consumed
    cases opened with
    | resident | fresh => exact consumed
  rw [limits] at timely
  refine ⟨now, rfl, .used accepted opened below (.refl _) fun _ _ => ⟨rfl, ?_⟩⟩
  exact ⟨readAt now :: (new ++ more ++ before), event, now₁, now₂, by simp, ran, timely, early⟩

theorem executeForDelivery_holds (signed : Signed) (principal : String)
    (context : WrappingContext) (operation : Operation) (input : Bytes) :
    Holds Ordinary [] w (fun events result t => ∃ now, events.head? = some (readAt now) ∧
      ∃ inner, Executed (w.expireAt now).2 signed context events inner t ∧
        ∀ authority output, result = .ok (authority, output) → inner = .ok output)
      (executeForDelivery signed principal context operation input) := by
  apply (execute_holds signed principal context operation input).bind
  · rintro _ e t ⟨now, first, executed⟩
    exact ⟨now, first, _, executed, nofun⟩
  rintro _ _ t ⟨now, first, executed⟩
  apply holds_get_then
  refine holds_check_then (fun e _ => ⟨now, first, _, executed, nofun⟩) fun message _ => ?_
  cases message with
  | fence => exact ⟨now, first, _, executed, nofun⟩
  | grant =>
    refine holds_check_then (fun e _ => ⟨now, first, _, executed, nofun⟩) fun _ _ => ?_
    refine holds_check_then (fun e _ => ⟨now, first, _, executed, nofun⟩) fun _ _ => ?_
    refine ⟨now, first, _, executed, ?_⟩
    rintro _ _ ⟨⟩
    rfl

end KeyRack.CryptoWorker
