import KeyRack.Properties.WorkerRuns

/-!
# Sequences, residencies and deadlines of a worker

Each sequence is consumed once, so a grant yields output at most once. A residency is
known by the counter of its lease; its uses are counted over the whole run, also where
an operation failed after the key was used.
-/
namespace KeyRack.CryptoWorker

open Assoc Custody Fallible Process Trace Option
open KeyRack.Worker (Error State)

section
variable {w t : Worker} {entry : Entry}

/-- An expiry changes nothing but the residencies. -/
theorem Worker.expireAt_eq (w : Worker) (now : Nat) :
    (w.expireAt now).2 = { w with resident := (w.expireAt now).2.resident } :=
  (w.expireAt_drops now).same

variable {binding : Digest}

theorem Opened.sequence (opened : Opened w binding r t) : t.sequence = w.sequence := by
  cases opened with
  | resident => rfl
  | fresh => rfl

theorem Worker.Drops.sequence (drops : w.Drops t) : t.sequence = w.sequence := by
  rw [drops.same]

variable {other : Digest}

theorem Opened.residency (opened : Opened w binding r t)
    (present : t.resident.lookup other = some r') :
    w.resident.lookup other = some r' ∨
      w.resident.lookup other = none ∧ w.nextLease < r'.counter := by
  cases opened with
  | resident => exact .inl present
  | fresh absent _ counter =>
    rcases FiniteMap.lookup_insert_cases present with ⟨same, rfl⟩ | ⟨_, kept⟩
    · have counted : r'.counter = w.nextLease + 1 := counter
      rw [same]
      exact .inr ⟨absent, by omega⟩
    · exact .inl kept

def reading : WorkerCallEvent → Option Nat
  | ⟨.millis, now⟩ => some now
  | _ => none

/-- The readings of the clock. -/
def readings (events : List WorkerCallEvent) : List Nat := events.filterMap reading

/-- The clock never goes back. -/
def NeverBack (labels : List Entry) : Prop :=
  (labels.flatMap fun entry => readings entry.events).Pairwise (· ≤ ·)

variable {labels : List Entry} {now : Nat}

theorem NeverBack.ordered (clock : NeverBack labels) (member : entry ∈ labels)
    (events : entry.events = before ++ [event, readAt now, readAt now']) : now ≤ now' := by
  have own : (readings entry.events).Pairwise (· ≤ ·) :=
    (List.pairwise_flatMap.mp clock).1 entry member
  have last : [readAt now, readAt now'].Sublist entry.events := by
    rw [events]
    exact (List.sublist_cons_self _ _).trans (List.sublist_append_right _ _)
  have two := own.sublist (last.filterMap reading)
  simpa [reading] using two

variable {limits : Limits} {grant : Grant}

theorem Limits.timely_iff (timely : limits.timely grant now = true) : now < grant.expiresMs ∧
      now < grant.ancestorExpiresMs ∧ now < grant.residencyUntilMs := by
  simp only [Limits.timely, Bool.and_eq_true, decide_eq_true_eq] at timely
  obtain ⟨⟨⟨⟨_, expires⟩, ancestor⟩, residency⟩, _⟩ := timely
  exact ⟨expires, ancestor, residency⟩

variable [Sha256] [Ed25519] [AuthorityJson]

/-! ### Sequences -/

/-- The request carries a grant with this sequence. -/
def Entry.Carries (entry : Entry) (sequence : Nat) : Prop :=
  (∃ signed context grant, entry.request.execution? = some (signed, context) ∧
    entry.before.verify signed = .ok (.grant grant) ∧ grant.sequence = sequence) ∨
  ∃ bytes evidence grant, entry.request = .generate bytes ∧
    entry.before.authenticated (α := AuthorityGrant) bytes = .ok (evidence, grant) ∧
    grant.sequence.get.val = sequence

/-- The grant is accepted: its sequence is consumed. -/
structure Entry.Accepts (entry : Entry) (sequence : Nat) : Prop where
  carries : entry.Carries sequence
  newer : entry.before.sequence < sequence
  consumed : entry.after.sequence = sequence

/-- The request brings output or evidence of a creation. -/
def Entry.Yields (entry : Entry) : Prop :=
  ∃ response, entry.result = .ok response ∧ response.isOutput = true

omit [Sha256] in
theorem Entry.Carries.unique (first : entry.Carries number)
    (second : entry.Carries number') : number = number' := by
  rcases first with ⟨_, _, _, asks, verified, rfl⟩ | ⟨_, _, _, asks, authentic, rfl⟩ <;>
    rcases second with ⟨_, _, _, asks', verified', rfl⟩ | ⟨_, _, _, asks', authentic', rfl⟩
  · cases asks.symm.trans asks'
    cases verified.symm.trans verified'
    rfl
  · rw [asks'] at asks
    cases asks
  · rw [asks] at asks'
    cases asks'
  · cases asks.symm.trans asks'
    cases authentic.symm.trans authentic'
    rfl

omit [Sha256] in
theorem verify_expireAt (w : Worker) (now : Nat) (signed : Signed) :
    (w.expireAt now).2.verify signed = w.verify signed := by
  rw [Worker.expireAt_eq]
  rfl

variable {signed : Signed} {context : WrappingContext}

theorem Accepted.sequence (accepted : Accepted w signed context grant binding t) :
    t.sequence = grant.sequence := by
  rw [accepted.consumed]

variable {events : List WorkerCallEvent} {result : Except Error Bytes}

/-- An execution that is not refused has consumed the sequence of its grant. -/
theorem Executed.sequence (executed : Executed w signed context events result t) :
    (t = w ∧ ∃ e, result = .error e) ∨ ∃ grant binding u,
      Accepted w signed context grant binding u ∧ t.sequence = grant.sequence := by
  cases executed with
  | refused => exact .inl ⟨rfl, _, rfl⟩
  | unopened _ accepted => exact .inr ⟨_, _, _, accepted, accepted.sequence⟩
  | unused _ accepted opened drops =>
    refine .inr ⟨_, _, _, accepted, ?_⟩
    rw [drops.sequence, opened.sequence, accepted.sequence]
  | used accepted opened _ drops =>
    refine .inr ⟨_, _, _, accepted, ?_⟩
    rw [drops.sequence]
    exact opened.sequence.trans accepted.sequence

/-- A request leaves the sequence alone and brings nothing, or consumes that of its grant, on
    a worker that is not fenced. -/
theorem Serves.sequence (serves : Serves w entry t) :
    (entry.after.sequence = entry.before.sequence ∧ ¬entry.Yields) ∨
      entry.Accepts entry.after.sequence ∧ entry.before.fenced = false := by
  obtain ⟨_, _, _, rfl, handled⟩ := serves.entry
  have silent {entry : Entry}
      (plain : ∀ response, entry.result = .ok response → response.isOutput = false) :
      ¬entry.Yields := by
    rintro ⟨response, answered, output⟩
    cases (plain response answered).symm.trans output
  cases handled with
  | @executed signed context now _ _ _ _ _ asks _ executed returns =>
    have unexpired : (w.expireAt now).2.sequence = w.sequence := (w.expireAt_drops now).sequence
    rcases executed.sequence with ⟨rfl, e, failed⟩ | ⟨grant, _, u, accepted, consumed⟩
    · left
      refine ⟨unexpired, ?_⟩
      rintro ⟨response, answered, _⟩
      obtain ⟨_, returned⟩ := returns response answered
      rw [failed] at returned
      cases returned
    · right
      have verified := accepted.verified
      rw [verify_expireAt] at verified
      have newer := accepted.newer
      rw [unexpired] at newer
      have unfenced := accepted.unfenced
      rw [w.expireAt_eq now] at unfenced
      rw [consumed]
      exact ⟨⟨.inl ⟨signed, context, grant, asks, verified, rfl⟩, newer, consumed⟩, unfenced⟩
  | expired plain => exact .inl ⟨(w.expireAt_drops _).sequence, silent plain⟩
  | revoked plain _ ended =>
    refine .inl ⟨?_, silent plain⟩
    rcases ended with rfl | applies
    · rfl
    · obtain ⟨_, rfl, _⟩ := applies.revoked
      rfl
  | reserved plain ended =>
    refine .inl ⟨?_, silent plain⟩
    rcases ended with rfl | ⟨_, _, _, rfl⟩
    · rfl
    · rfl
  | generated generated returns =>
    cases generated with
    | refused =>
      left
      refine ⟨rfl, ?_⟩
      rintro ⟨response, answered, _⟩
      obtain ⟨_, returned, _⟩ := returns response answered
      cases returned
    | consumed _ _ begun | complete begun =>
      right
      exact ⟨⟨.inr ⟨_, _, _, rfl, begun.authentic, rfl⟩, begun.newer, rfl⟩, begun.unfenced⟩

/-! ### Residencies -/

theorem Executed.residency (executed : Executed w signed context events result t)
    (present : t.resident.lookup other = some r') :
    (∃ r, w.resident.lookup other = some r ∧ r.Continues r') ∨
      w.resident.lookup other = none ∧ w.nextLease < r'.counter := by
  -- all that happens after the residency is opened only continues or drops residencies
  have through {grant : Grant} {binding : Digest} {r q : Resident} {u v : Worker}
      (accepted : Accepted w signed context grant binding u) (opened : Opened u binding r v)
      (earlier : v.resident.lookup other = some q) (continues : q.Continues r') :
      (∃ r, w.resident.lookup other = some r ∧ r.Continues r') ∨
        w.resident.lookup other = none ∧ w.nextLease < r'.counter := by
    have resident : u.resident = w.resident := by rw [accepted.consumed]
    have nextLease : u.nextLease = w.nextLease := by rw [accepted.consumed]
    rcases opened.residency earlier with old | ⟨absent, new⟩
    · exact .inl ⟨q, resident ▸ old, continues⟩
    · right
      rw [Resident.counter, continues.lease, ← resident, ← nextLease]
      exact ⟨absent, new⟩
  cases executed with
  | refused => exact .inl ⟨r', present, .refl r'⟩
  | unopened _ accepted =>
    have resident := congrArg Worker.resident accepted.consumed
    exact .inl ⟨r', resident ▸ present, .refl r'⟩
  | unused _ accepted opened drops =>
    exact through accepted opened (drops.lookup other r' present) (.refl r')
  | used accepted opened _ drops =>
    obtain ⟨q, earlier, continues⟩ :=
      Worker.used_continues opened.found (drops.lookup other r' present)
    exact through accepted opened earlier continues

/-- A residency goes on, or it had expired before the binding was opened again. -/
theorem Serves.residency (serves : Serves w entry t)
    (before : w.resident.lookup binding = some r) (after : t.resident.lookup binding = some r') :
    r.Continues r' ∨ w.nextLease < r'.counter ∧
      ∃ now, entry.events.head? = some (readAt now) ∧ r.until ≤ now := by
  obtain ⟨_, _, _, rfl, handled⟩ := serves.entry
  have same (unchanged : w.resident.lookup binding = some r') : r.Continues r' := by
    rw [before] at unchanged
    cases unchanged
    exact .refl r
  cases handled with
  | @executed _ _ now _ _ _ _ _ _ first executed =>
    have kept := w.lookup_expireAt now binding
    rw [before] at kept
    rcases executed.residency after with ⟨q, earlier, continues⟩ | ⟨absent, new⟩
    · rw [earlier] at kept
      obtain ⟨same, _⟩ := filter_eq_some_iff.mp kept.symm
      cases same
      exact .inl continues
    · right
      have nextLease : (w.expireAt now).2.nextLease = w.nextLease := by rw [w.expireAt_eq now]
      refine ⟨nextLease ▸ new, now, first, ?_⟩
      rw [absent] at kept
      have late := filter_eq_none_iff.mp kept.symm r rfl
      simpa using late
  | expired => exact .inl (same ((w.expireAt_drops _).lookup binding r' after))
  | revoked _ _ ended =>
    rcases ended with rfl | applies
    · exact .inl (same after)
    · obtain ⟨_, rfl, _⟩ := applies.revoked
      cases after
  | reserved _ ended =>
    rcases ended with rfl | ⟨_, _, _, rfl⟩
    · exact .inl (same after)
    · exact .inl (same after)
  | generated generated =>
    cases generated with
    | refused | consumed | complete => exact .inl (same after)

/-! ### Uses -/

/-- The counter of the lease whose key a request has used: the one it has opened, or the
    one that was there. -/
def Entry.leaseUsed (entry : Entry) : Option Nat :=
  match entry.request.execution? with
  | none => none
  | some (_, context) =>
    if (entry.events.any (·.1.isCipher)) = true then
      if entry.before.nextLease < entry.after.nextLease then some entry.after.nextLease
      else match contextDigest context with
        | .error _ => none
        | .ok binding => (entry.before.resident.lookup binding).map Resident.counter
    else none

/-- How many requests have used the key under a lease. -/
def uses (labels : List Entry) (counter : Nat) : Nat :=
  labels.countP fun entry => entry.leaseUsed == some counter

/-- A cipher runs only where a use of a residency is counted. -/
theorem Executed.use (executed : Executed w signed context events result t) :
    Quiet events ∨ ∃ grant binding r u v, Accepted w signed context grant binding u ∧
      Opened u binding r v ∧ r.uses < v.limits.usesPerResidency ∧ (v.used binding r).Drops t := by
  cases executed with
  | refused quiet | unopened quiet | unused quiet => exact .inl quiet
  | used accepted opened below drops =>
    exact .inr ⟨_, _, _, _, _, accepted, opened, below, drops⟩

/-- A request uses no key, or one that was resident or that it made resident; there a use is
    counted, if the residency outlasts the request. -/
structure Uses (w : Worker) (counter : Nat) (t : Worker) (binding : Digest) (r : Resident) :
    Prop where
  named : r.counter = counter
  below : r.uses < w.limits.usesPerResidency
  resident : w.resident.lookup binding = some r ∨ counter = w.nextLease + 1 ∧ r.uses = 0
  given : counter ≤ t.nextLease
  counted : ∀ other r', t.resident.lookup other = some r' →
    (other = binding ∧ r' = { r with uses := r.uses + 1 }) ∨
      other ≠ binding ∧ w.resident.lookup other = some r'

theorem use_of_opened (sound : w.Sound)
    (accepted : Accepted (w.expireAt now).2 signed context grant binding u)
    (opened : Opened u binding r v) (below : r.uses < v.limits.usesPerResidency)
    (drops : (v.used binding r).Drops t) : ∃ counter,
      (if w.nextLease < t.nextLease then some t.nextLease
        else (w.resident.lookup binding).map Resident.counter) = some counter ∧
      Uses w counter t binding r := by
  have expired := w.expireAt_eq now
  have resident : u.resident = (w.expireAt now).2.resident := by rw [accepted.consumed]
  have nextLease : u.nextLease = w.nextLease := by rw [accepted.consumed, expired]
  have limits : u.limits = w.limits := by rw [accepted.consumed, expired]
  have last : t.nextLease = v.nextLease := by
    rw [drops.same]
    rfl
  have earlier (other : Digest) (r' : Resident) (found : u.resident.lookup other = some r') :
      w.resident.lookup other = some r' := (w.expireAt_drops now).lookup other r' (resident ▸ found)
  cases opened with
  | resident found =>
    refine ⟨r.counter, ?_, rfl, limits ▸ below, .inl (earlier binding r found), ?_, ?_⟩
    · rw [if_neg (by omega), earlier binding r found, map_some]
    · have given := sound.leased binding r (earlier binding r found)
      omega
    · intro other r' present
      rcases FiniteMap.lookup_insert_cases (drops.lookup other r' present) with
        here | ⟨apart, found'⟩
      · exact .inl here
      · exact .inr ⟨apart, earlier other r' found'⟩
  | fresh _ _ counter unused =>
    have counted : r.counter = u.nextLease + 1 := counter
    have raised : t.nextLease = u.nextLease + 1 := last
    refine ⟨t.nextLease, if_pos (by omega), by omega, limits ▸ below,
      .inr ⟨by omega, unused⟩, le_refl _, ?_⟩
    intro other r' present
    rcases FiniteMap.lookup_insert_cases (drops.lookup other r' present) with here | ⟨apart, found'⟩
    · exact .inl here
    · simp only [FiniteMap.lookup_insert_apply, if_neg apart] at found'
      exact .inr ⟨apart, earlier other r' found'⟩

theorem Serves.leaseUsed (serves : Serves w entry t) (sound : w.Sound) :
    entry.leaseUsed = none ∨ ∃ counter binding r, entry.leaseUsed = some counter ∧
      Uses w counter t binding r := by
  obtain ⟨_, events, _, rfl, handled⟩ := serves.entry
  cases handled with
  | executed asks _ executed =>
    rcases executed.use with quiet | ⟨_, binding, r, u, v, accepted, opened, below, drops⟩
    · have silent : (events.any (·.1.isCipher)) = false :=
        List.any_eq_false.mpr fun event member => by simp [quiet event member]
      simp [Entry.leaseUsed, asks, silent]
    · cases ran : events.any (·.1.isCipher) with
      | false =>
        simp [Entry.leaseUsed, asks, ran]
      | true =>
        right
        obtain ⟨counter, found, uses⟩ := use_of_opened sound accepted opened below drops
        refine ⟨counter, binding, r, ?_, uses⟩
        simpa only [Entry.leaseUsed, asks, ran, accepted.bound, if_true] using found
  | expired | revoked | reserved | generated => exact .inl rfl

/-- The uses so far, against what the worker has counted. -/
structure Counted (past : List Entry) (w : Worker) : Prop where
  resident : ∀ binding r, w.resident.lookup binding = some r → uses past r.counter ≤ r.uses
  bounded : ∀ counter, uses past counter ≤ w.limits.usesPerResidency
  future : ∀ counter, w.nextLease < counter → uses past counter = 0

omit [Ed25519] [AuthorityJson] in
theorem uses_append (past : List Entry) (entry : Entry) (counter : Nat) :
    uses (past ++ [entry]) counter =
      uses past counter + if entry.leaseUsed = some counter then 1 else 0 := by
  unfold uses
  rw [List.countP_append, List.countP_singleton]
  simp only [beq_iff_eq]

theorem Counted.step (counted : Counted past w) (sound : w.Sound)
    (serves : Serves w entry t) : Counted (past ++ [entry]) t := by
  have moves := (serves.keeps sound).moves
  rcases serves.leaseUsed sound with unused | ⟨counter, binding, r, used, uses'⟩
  · have same (counter : Nat) : uses (past ++ [entry]) counter = uses past counter := by
      simp [uses_append, unused]
    constructor
    · intro binding r' present
      rw [same]
      rcases moves.residencies binding r' present with ⟨r, earlier, continues⟩ | new
      · have before := counted.resident binding r earlier
        rw [Resident.counter, continues.lease]
        exact before.trans continues.uses
      · rw [counted.future _ new]
        exact Nat.zero_le _
    · intro counter
      rw [same, moves.limits]
      exact counted.bounded counter
    · intro counter later
      rw [same]
      exact counted.future counter (moves.leases.trans_lt later)
  · -- one use more under this lease, and none under the others
    have here : uses (past ++ [entry]) counter = uses past counter + 1 := by
      simp [uses_append, used]
    have elsewhere (other : Nat) (apart : other ≠ counter) :
        uses (past ++ [entry]) other = uses past other := by
      simp [uses_append, used, Ne.symm apart]
    have before : uses past counter ≤ r.uses := by
      rcases uses'.resident with found | ⟨_, _⟩
      · rw [← uses'.named]
        exact counted.resident binding r found
      · rw [counted.future counter (by omega)]
        exact Nat.zero_le _
    have below := uses'.below
    constructor
    · intro other r' present
      rcases uses'.counted other r' present with ⟨_, rfl⟩ | ⟨apart, earlier⟩
      · have same : Resident.counter { r with uses := r.uses + 1 } = counter := uses'.named
        rw [same, here]
        exact Nat.succ_le_succ before
      · have different : r'.counter ≠ counter := by
          rcases uses'.resident with found | ⟨_, _⟩
          · intro same
            rw [← uses'.named] at same
            exact apart (sound.apart other binding r' r earlier found same)
          · have given := sound.leased other r' earlier
            omega
        rw [elsewhere _ different]
        exact counted.resident other r' earlier
    · intro other
      rw [moves.limits]
      by_cases same : other = counter
      · rw [same, here]
        omega
      · rw [elsewhere other same]
        exact counted.bounded other
    · intro other later
      have given := uses'.given
      rw [elsewhere other (by omega)]
      exact counted.future other (moves.leases.trans_lt later)

/-! ### Deadlines -/

/-- After the cipher ran, the clock was read, before all deadlines of the grant and of the
    residency. -/
def Entry.InTime (entry : Entry) (signed : Signed) (context : WrappingContext) : Prop :=
  ∃ grant binding r before event now now',
    entry.before.verify signed = .ok (.grant grant) ∧ contextDigest context = .ok binding ∧
    entry.after.resident.lookup binding = some r ∧
    entry.events = before ++ [event, readAt now, readAt now'] ∧ event.1.isCipher = true ∧
    now < grant.expiresMs ∧ now < grant.ancestorExpiresMs ∧ now < grant.residencyUntilMs ∧
    now < r.until ∧ now' < r.until

theorem Serves.inTime (serves : Serves w entry t) (clock : NeverBack labels)
    (member : entry ∈ labels) (yields : entry.Yields)
    (asks : entry.request.execution? = some (signed, context)) : entry.InTime signed context := by
  obtain ⟨_, _, _, rfl, handled⟩ := serves.entry
  obtain ⟨response, answered, _⟩ := yields
  cases handled with
  | executed asks' _ executed returns =>
    cases asks'.symm.trans asks
    obtain ⟨_, returned⟩ := returns response answered
    rw [returned] at executed
    cases executed with
    | used accepted _ _ _ served =>
      obtain ⟨rfl, before, event, now, now', rfl, ran, timely, early⟩ := served _ rfl
      obtain ⟨expires, ancestor, residency⟩ := Limits.timely_iff timely
      have verified := accepted.verified
      rw [verify_expireAt] at verified
      have order := clock.ordered member rfl
      exact ⟨_, _, _, before, event, now, now', verified, accepted.bound, AList.lookup_insert _,
        rfl, ran, expires, ancestor, residency, order.trans_lt early, early⟩
  | expired | revoked | reserved | generated => cases asks

/-! ### Runs -/

/-- Output comes with a grant that is accepted, from a worker that is not fenced. -/
theorem Serves.accepts (serves : Serves w entry t) (yields : entry.Yields) :
    entry.Accepts entry.after.sequence ∧ entry.before.fenced = false :=
  serves.sequence.resolve_left fun idle => idle.2 yields

variable {labels : List Entry}

section
variable (steps : Steps Serves w labels t) (sound : w.Sound)
include steps sound

/-- The request at a position of a run. -/
theorem serves_at (found : labels[n]? = some entry) : Serves entry.before entry entry.after ∧
      entry.before.Sound ∧ Steps Serves entry.after (labels.drop (n + 1)) t := by
  obtain ⟨u, v, before, serves, later⟩ := steps.at_position found
  have kept := runs_keep before sound
  obtain ⟨rfl, rfl, ran⟩ := serves
  exact ⟨⟨rfl, rfl, ran⟩, kept.sound, later⟩

/-- A later request finds the worker where the earlier ones have moved it. -/
theorem moves_between {m n : Nat} (first : labels[m]? = some a)
    (second : labels[n]? = some b) (later : m < n) : a.after.Moves b.before := by
  obtain ⟨serves, sound', rest⟩ := serves_at steps sound first
  have found : (labels.drop (m + 1))[n - (m + 1)]? = some b := by
    rw [List.getElem?_drop, Nat.add_sub_cancel' later]
    exact second
  obtain ⟨_, _, between, ⟨same, _⟩, _⟩ := rest.at_position found
  rw [same]
  exact (runs_keep between (serves.keeps sound').sound).moves

theorem accepts_increase {m n : Nat} (first : labels[m]? = some a) (second : labels[n]? = some b)
    (later : m < n) (one : a.Accepts x) (other : b.Accepts y) : x < y := by
  have moves := moves_between steps sound first second later
  have lower := one.consumed
  have upper := other.newer
  have grown := moves.sequence
  omega

theorem counted_run (start : Counted [] w) : Counted labels t := by
  have begin' : w.Sound ∧ Counted [] w := ⟨sound, start⟩
  have held := steps.history (P := fun past s => s.Sound ∧ Counted past s)
    (fun _ s _ u serves holds =>
      ⟨(serves.keeps holds.1).sound, holds.2.step holds.1 serves⟩) begin'
  exact held.2

end

omit [Ed25519] [AuthorityJson] in
theorem newWithTrust_sound {domain : String} {observer : SigningKey} {w : Worker}
    (created : newWithTrust trust providerRef domain limits incarnation observer = .ok w) :
    w.Sound ∧ w.limits = limits ∧ Counted [] w := by
  simp only [newWithTrust, eq_ok] at created
  obtain ⟨_, _, _, _, _, _, rfl⟩ := created
  have none (binding : Digest) : (∅ : FiniteMap Digest Resident).lookup binding = none := rfl
  exact ⟨⟨Nat.zero_le _, by rintro _ _ ⟨⟩, by rintro _ _ ⟨⟩, by rintro _ _ _ _ ⟨⟩, fun _ => none⟩,
    rfl, by rintro _ _ ⟨⟩, fun _ => Nat.zero_le _, fun _ _ => rfl⟩

/-- Sequences are consumed in strict order, and each yields output at most once. -/
structure GrantsOnce (labels : List Entry) : Prop where
  consumed : ∀ entry ∈ labels,
    (entry.after.sequence = entry.before.sequence ∧ ¬entry.Yields) ∨
      entry.Accepts entry.after.sequence
  increasing : ∀ (m n : Nat) (a b : Entry) (x y : Nat), labels[m]? = some a →
    labels[n]? = some b → m < n → a.Accepts x → b.Accepts y → x < y
  once : ∀ (m n : Nat) (a b : Entry) (x : Nat), labels[m]? = some a → labels[n]? = some b →
    a.Yields → b.Yields → a.Carries x → b.Carries x → m = n

/-- The residencies from here on: a lease keeps its binding and its deadline, a counter does
    not come back, and a binding gets another lease only after an expiry. -/
structure LeasesKept (w : Worker) : Prop where
  deadline : ∀ more t, Steps Serves w more t → ∀ (binding binding' : Digest) (r r' : Resident),
    w.resident.lookup binding = some r → t.resident.lookup binding' = some r' →
    r'.counter = r.counter → binding' = binding ∧ r'.lease = r.lease ∧ r'.until = r.until
  unreused : ∀ more t, Steps Serves w more t → ∀ counter, counter ≤ w.nextLease →
    (∀ (binding : Digest) (r : Resident), w.resident.lookup binding = some r →
      r.counter ≠ counter) →
    ∀ (binding : Digest) (r : Resident), t.resident.lookup binding = some r → r.counter ≠ counter
  renewed : ∀ (entry : Entry) (t : Worker), Serves w entry t →
    ∀ (binding : Digest) (r r' : Resident), w.resident.lookup binding = some r →
      t.resident.lookup binding = some r' → (r'.lease = r.lease ∧ r'.until = r.until) ∨
        w.nextLease < r'.counter ∧ ∃ now, entry.events.head? = some (readAt now) ∧ r.until ≤ now

/-- In every run, sequences are consumed in strict order and a grant yields output at most
    once; the residencies keep to their number, their leases, their deadlines and their uses;
    output comes before all deadlines; and after a revocation nothing does. -/
theorem worker_runs {trust : TrustConfig} {providerRef : ProviderRef} {domain : String}
    {limits : Limits} {incarnation : Vector UInt8 32} {observer : SigningKey} {w₀ w : Worker}
    {labels : List Entry}
    (created : newWithTrust trust providerRef domain limits incarnation observer = .ok w₀)
    (steps : Steps Serves w₀ labels w) (clock : NeverBack labels) :
    GrantsOnce labels ∧ w.resident.size ≤ limits.residentKeys ∧ LeasesKept w ∧
    (∀ counter, uses labels counter ≤ limits.usesPerResidency) ∧
    (∀ entry ∈ labels, entry.Yields → ∀ signed context,
      entry.request.execution? = some (signed, context) → entry.InTime signed context) ∧
    ∀ (m : Nat) (a : Entry) (bytes : Bytes) (u : Worker), labels[m]? = some a →
      a.request = .revoke bytes → a.before.Applies bytes a.events u → a.after = u ∧
        (∀ (n : Nat) (b : Entry), labels[n]? = some b → m < n → ¬b.Yields) ∧
        ∀ binding, w.resident.lookup binding = none := by
  obtain ⟨sound, limited, start⟩ := newWithTrust_sound created
  have kept := runs_keep steps sound
  have each (entry : Entry) (member : entry ∈ labels) :
      Serves entry.before entry entry.after := by
    obtain ⟨n, found⟩ := List.mem_iff_getElem?.mp member
    exact (serves_at steps sound found).1
  refine ⟨⟨?_, ?_, ?_⟩, ?_, ⟨?_, ?_, ?_⟩, ?_, ?_, ?_⟩
  · intro entry member
    exact (each entry member).sequence.imp_right And.left
  · intro m n a b x y first second later one other
    exact accepts_increase steps sound first second later one other
  · intro m n a b x first second yields yields' carries carries'
    have one := ((each a (List.mem_of_getElem? first)).accepts yields).1
    have other := ((each b (List.mem_of_getElem? second)).accepts yields').1
    rw [one.carries.unique carries] at one
    rw [other.carries.unique carries'] at other
    rcases Nat.lt_trichotomy m n with before | same | after
    · exact absurd (accepts_increase steps sound first second before one other) (lt_irrefl x)
    · exact same
    · exact absurd (accepts_increase steps sound second first after other one) (lt_irrefl x)
  · rw [← limited, ← kept.moves.limits]
    exact kept.sound.room
  · intro more t later binding _ r r' before after counter
    have moves := (runs_keep later kept.sound).moves
    obtain ⟨here, continues⟩ := moves.same_lease kept.sound before after counter
    exact ⟨here, continues.lease, continues.until⟩
  · intro _ t later counter given absent
    exact (runs_keep later kept.sound).moves.not_reused given absent
  · intro entry t serves _ r _ before after
    rcases serves.residency before after with continues | renewed
    · exact .inl ⟨continues.lease, continues.until⟩
    · exact .inr renewed
  · intro counter
    rw [← limited, ← kept.moves.limits]
    exact (counted_run steps sound start).bounded counter
  · intro entry member yields _ _ asks
    exact (each entry member).inTime clock member yields asks
  · intro m a _ u found asks applies
    obtain ⟨serves, sound', rest⟩ := serves_at steps sound found
    have final : a.after = u := by
      have handled := serves.handled
      rw [asks] at handled
      cases handled with
      | executed impossible => cases impossible
      | revoked _ _ _ final => exact final u applies
    obtain ⟨_, revoked, _⟩ := applies.revoked
    have fenced : a.after.fenced = true := by rw [final, revoked]
    refine ⟨final, ?_, ?_⟩
    · intro n b second later yields
      have still := (moves_between steps sound found second later).fenced fenced
      have unfenced := ((each b (List.mem_of_getElem? second)).accepts yields).2
      rw [still] at unfenced
      cases unfenced
    · have ended := runs_keep rest (serves.keeps sound').sound
      exact ended.sound.fenced (ended.moves.fenced fenced)

end

/-! ### A run that can be evaluated -/

/-- A stand-in hash: the first 32 bytes. -/
abbrev leadingBytes : Sha256 := ⟨fun bytes => Vector.ofFn fun i => bytes.getD i 0⟩

/-- A scheme that accepts everything. -/
abbrev acceptingScheme : Ed25519 :=
  ⟨id, fun _ _ => Vector.replicate 64 0, fun _ _ _ => true⟩

attribute [local instance] leadingBytes acceptingScheme

def sampleIdentifier : WrappingIdentifier := ⟨"sample", by decide +kernel⟩

theorem one_nonzero : (1 : U64) ≠ 0 := by decide

def sampleTrust : TrustConfig :=
  ⟨⟨sampleIdentifier, sampleIdentifier, Vector.replicate 32 3⟩, ⟨1, one_nonzero⟩, sampleIdentifier,
    sampleIdentifier⟩

def sampleIncarnation : Vector UInt8 32 := Vector.replicate 32 7

def sampleLimits : Limits := ⟨1, 1000, 2, 1000⟩

def sampleStart : Except Error Worker :=
  newWithTrust sampleTrust fixtureContext.providerRef fixtureContext.securityDomain.asStr
    sampleLimits sampleIncarnation (Vector.replicate 32 9)

def sampleGrant : Grant where
  worker := String.ofList (Encoding.base64 sampleIncarnation.toList)
  principal := "caller"
  contextSha256 := Sha256.digest
    (match fixtureContext.canonicalBytes with
      | .ok bytes => bytes
      | .error _ => [])
  operation := .encrypt
  inputSha256 := Sha256.digest [1, 2, 3]
  generation := 1
  sequence := 1
  notBeforeMs := 0
  expiresMs := 100
  ancestorExpiresMs := 100
  residencyUntilMs := 100

/-- A reader that knows one message. -/
abbrev oneGrant : AuthorityJson := ⟨fun _ => some (.grant sampleGrant)⟩

attribute [local instance] oneGrant

/-- The clock stands at 5, and the source and the cipher do what they are asked. -/
def sampleAnswer : (c : WorkerCall) → Option c.Reply
  | .millis => some 5
  | .openMaterial _ => some (.ok (List.replicate 32 0))
  | .nonce => some (Vector.replicate 12 0)
  | .encrypt _ _ message _ | .decrypt _ _ message _ => some (some message)
  | .lock => some (State.new "worker")
  | .unlock _ => some ()
  | .prepareGeneration _ => some (.ok ())
  | .generateWrapped context envelopeRef =>
    some (.ok ⟨context, envelopeRef, Vector.replicate 32 5⟩)
  | .activateGenerated => some ()
  | .panic => none

/-- Serve a request on these answers. -/
def Request.play (request : Request) (w : Worker) : Option Entry :=
  ((request.method.run.run w).replay sampleAnswer).map fun (events, result, after) =>
    ⟨w, request, events, result, after⟩

theorem serves_of_play (played : request.play w = some entry) :
    entry.request = request ∧ Serves w entry entry.after := by
  obtain ⟨⟨_, _⟩, replayed, rfl⟩ := map_eq_some_iff.mp played
  exact ⟨rfl, rfl, rfl, Prog.replay_execution replayed⟩

def sampleRequest : Request :=
  .execute ⟨"", List.replicate 64 0⟩ "caller" fixtureContext .encrypt [1, 2, 3]

/-- The same grant twice. -/
def sampleRun : Option (Entry × Entry) :=
  (sampleStart.toOption.bind sampleRequest.play).bind fun first =>
    (sampleRequest.play first.after).map fun second => (first, second)

def yields (entry : Entry) : Bool := entry.result.toOption.any Response.isOutput

theorem yields_iff : yields entry = true ↔ entry.Yields := by
  cases result : entry.result <;> simp [yields, Entry.Yields, result, Except.toOption]

theorem sampleRun_yields : sampleRun.any (fun run => yields run.1 && !yields run.2 &&
    decide ((readings run.1.events ++ readings run.2.events).Pairwise (· ≤ ·))) = true := by
  decide +kernel

/-- A grant yields output before its deadlines, and none when it is used again. -/
theorem worker_runs_sample : ∃ (w₀ : Worker) (first second : Entry), sampleStart = .ok w₀ ∧
    Steps Serves w₀ [first, second] second.after ∧ first.Yields ∧ ¬second.Yields ∧
    first.InTime ⟨"", List.replicate 64 0⟩ fixtureContext := by
  obtain ⟨⟨first, second⟩, played, checked⟩ := (any_eq_true _ _).mp sampleRun_yields
  simp only [Bool.and_eq_true, Bool.not_eq_true', ← Bool.not_eq_true, yields_iff,
    decide_eq_true_eq] at checked
  obtain ⟨⟨brings, refused⟩, ordered⟩ := checked
  obtain ⟨_, begun, more⟩ := bind_eq_some_iff.mp played
  obtain ⟨_, again, ⟨⟩⟩ := map_eq_some_iff.mp more
  obtain ⟨w₀, started, served⟩ := bind_eq_some_iff.mp begun
  obtain ⟨asks, serves⟩ := serves_of_play served
  have steps : Steps Serves w₀ [first, second] second.after :=
    .cons serves (.cons (serves_of_play again).2 (.nil _))
  have clock : NeverBack [first, second] := by simpa [NeverBack] using ordered
  have runs := worker_runs (ok_of_toOption started) steps clock
  exact ⟨w₀, first, second, ok_of_toOption started, steps, brings, refused,
    runs.2.2.2.2.1 first (by simp) brings _ _ (by rw [asks]; rfl)⟩

end KeyRack.CryptoWorker
