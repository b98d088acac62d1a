import KeyRack.Properties.CustodySteps

/-!
# Runs of a crypto worker

A worker serves requests one after the other, each to its end. Every request moves the
worker in one direction only: sequences and lease counters grow, a residency keeps its
lease and its deadline for as long as it lasts, and a revocation is final.
-/
namespace KeyRack.CryptoWorker

open Assoc Custody Process Trace FiniteMap
open KeyRack.Worker (Authority Error State)

/-! ### Requests -/

inductive Request where
  | execute (signed : Signed) (principal : String) (context : WrappingContext)
      (operation : Operation) (input : Bytes)
  | executeForDelivery (signed : Signed) (principal : String) (context : WrappingContext)
      (operation : Operation) (input : Bytes)
  | expire
  | revoke (bytes : Bytes)
  | reserveCreation (plan : CreationPlan) (context : CustodyContext)
  | generate (bytes : Bytes)

inductive Response where
  | output (bytes : Bytes)
  | delivery (authority : Authority) (bytes : Bytes)
  | cleanups (cleanups : List ResidencyCleanup)
  | revoked (evidence : Evidence RevocationResult)
  | reserved
  | created (evidence : CreationEvidence)

/-- The message and the context of an execution. -/
def Request.execution? : Request → Option (Signed × WrappingContext)
  | .execute signed _ context _ _ | .executeForDelivery signed _ context _ _ =>
    some (signed, context)
  | _ => none

/-- What an execution or a creation brings. -/
def Response.isOutput : Response → Bool
  | .output _ | .delivery _ _ | .created _ => true
  | _ => false

/-- A failure is no response. -/
theorem unanswered {P : Response → Prop} (e : Error) :
    ∀ response, (.error e : Except Error Response) = .ok response → P response := by
  intro _ answered
  cases answered

/-- A request with everything that happened to it. -/
structure Entry where
  before : Worker
  request : Request
  events : List WorkerCallEvent
  result : Except Error Response
  after : Worker

section
variable [Sha256] [Ed25519] [AuthorityJson]

def Request.method : Request → WorkerM Response
  | .execute signed principal context operation input => do
    return .output (← CryptoWorker.execute signed principal context operation input)
  | .executeForDelivery signed principal context operation input => do
    let (authority, output) ←
      CryptoWorker.executeForDelivery signed principal context operation input
    return .delivery authority output
  | .expire => do
    return .cleanups (← CryptoWorker.expire)
  | .revoke bytes => do
    return .revoked (← CryptoWorker.revoke bytes)
  | .reserveCreation plan context => do
    CryptoWorker.reserveCreation plan context
    return .reserved
  | .generate bytes => do
    return .created (← CryptoWorker.generate bytes)

def Serves (w : Worker) (entry : Entry) (t : Worker) : Prop :=
  entry.before = w ∧ entry.after = t ∧ Ran entry.request.method w entry.events entry.result t

/-- The ways in which a request ends. -/
inductive Handled (w : Worker) : Request → List WorkerCallEvent → Except Error Response →
    Worker → Prop where
  | executed {request : Request} {events : List WorkerCallEvent} {result : Except Error Response}
      (asks : request.execution? = some (signed, context))
      (first : events.head? = some (readAt now))
      (executed : Executed (w.expireAt now).2 signed context events reply t)
      (returns : ∀ response, result = .ok response → ∃ output, reply = .ok output) :
      Handled w request events result t
  | expired {result : Except Error Response}
      (plain : ∀ response, result = .ok response → response.isOutput = false) :
      Handled w .expire [readAt now] result (w.expireAt now).2
  | revoked {result : Except Error Response}
      (plain : ∀ response, result = .ok response → response.isOutput = false)
      (quiet : Quiet events) (ended : t = w ∨ w.Applies bytes events t)
      (final : ∀ u, w.Applies bytes events u → t = u) : Handled w (.revoke bytes) events result t
  | reserved {result : Except Error Response}
      (plain : ∀ response, result = .ok response → response.isOutput = false)
      (ended : t = w ∨ w.creation = none ∧ w.fenced = false ∧ ∃ expected,
        t = { w with creation := some ⟨plan, context, expected, .ready⟩ }) :
      Handled w (.reserveCreation plan context) [] result t
  | generated (generated : Generated w bytes events reply t)
      (returns : ∀ response, result = .ok response →
        ∃ evidence, reply = .ok evidence ∧ response = .created evidence) :
      Handled w (.generate bytes) events result t

variable {w t : Worker}

theorem Request.method_holds (request : Request) :
    ∃ allowed, Holds allowed [] w (Handled w request) request.method := by
  cases request with
  | execute signed principal context operation input =>
    refine ⟨_, (execute_holds signed principal context operation input).bind ?_ ?_⟩
    · rintro _ e t ⟨now, first, executed⟩
      exact .executed rfl first executed (unanswered e)
    · rintro _ output t ⟨now, first, executed⟩
      exact .executed rfl first executed fun _ _ => ⟨output, rfl⟩
  | executeForDelivery signed principal context operation input =>
    refine ⟨_, (executeForDelivery_holds signed principal context operation input).bind ?_ ?_⟩
    · rintro _ e t ⟨now, first, _, executed, _⟩
      exact .executed rfl first executed (unanswered e)
    · rintro _ ⟨authority, output⟩ t ⟨now, first, _, executed, returned⟩
      exact .executed rfl first executed fun _ _ =>
        ⟨output, returned authority output rfl⟩
  | expire =>
    refine ⟨_, expire_holds.bind ?_ ?_⟩
    · rintro _ e t ⟨now, rfl, rfl, _⟩
      exact .expired (unanswered e)
    · rintro _ _ t ⟨now, rfl, rfl, _⟩
      refine .expired ?_
      rintro _ ⟨⟩
      rfl
  | revoke bytes =>
    refine ⟨_, (revoke_holds bytes).bind ?_ ?_⟩
    · rintro _ e t ⟨quiet, ended, final⟩
      exact .revoked (unanswered e) quiet ended final
    · rintro _ _ t ⟨quiet, ended, final⟩
      refine .revoked ?_ quiet ended final
      rintro _ ⟨⟩
      rfl
  | reserveCreation plan context =>
    refine ⟨_, (reserveCreation_holds plan context).bind ?_ ?_⟩
    · rintro _ e t ⟨rfl, ended⟩
      exact .reserved (unanswered e) ended
    · rintro _ _ t ⟨rfl, ended⟩
      refine .reserved ?_ ended
      rintro _ ⟨⟩
      rfl
  | generate bytes =>
    refine ⟨_, (generate_holds bytes).bind ?_ ?_⟩
    · rintro _ e t generated
      exact .generated generated (unanswered e)
    · rintro _ evidence t generated
      refine .generated generated ?_
      rintro _ ⟨⟩
      exact ⟨evidence, rfl, rfl⟩

theorem Serves.handled (serves : Serves w entry t) :
    Handled w entry.request entry.events entry.result t := by
  obtain ⟨_, _, ran⟩ := serves
  obtain ⟨_, holds⟩ := entry.request.method_holds (w := w)
  exact holds.ran ran

theorem Serves.entry {entry : Entry} (serves : Serves w entry t) :
    ∃ request events result, entry = ⟨w, request, events, result, t⟩ ∧
      Handled w request events result t := by
  have handled := serves.handled
  obtain ⟨rfl, rfl, _⟩ := serves
  exact ⟨entry.request, entry.events, entry.result, rfl, handled⟩

end

/-! ### What every request keeps -/

/-- The same residency, used some more. -/
structure Resident.Continues (r r' : Resident) : Prop where
  key : r'.key = r.key
  lease : r'.lease = r.lease
  «until» : r'.until = r.until
  uses : r.uses ≤ r'.uses

theorem Resident.Continues.refl (r : Resident) : r.Continues r := ⟨rfl, rfl, rfl, le_refl _⟩

variable {r' : Resident} {r : Resident}

theorem Resident.Continues.trans (first : r.Continues r')
    (second : r'.Continues r'') : r.Continues r'' :=
  ⟨second.key.trans first.key, second.lease.trans first.lease, second.until.trans first.until,
    first.uses.trans second.uses⟩

/-- The counter of its lease. -/
abbrev Resident.counter (r : Resident) : Nat := r.lease.counter.get.val

structure Worker.Sound (w : Worker) : Prop where
  room : w.resident.size ≤ w.limits.residentKeys
  leased : ∀ binding r, w.resident.lookup binding = some r → r.counter ≤ w.nextLease
  within : ∀ binding r, w.resident.lookup binding = some r → r.uses ≤ w.limits.usesPerResidency
  apart : ∀ binding binding' r r', w.resident.lookup binding = some r →
    w.resident.lookup binding' = some r' → r.counter = r'.counter → binding = binding'
  fenced : w.fenced = true → ∀ binding, w.resident.lookup binding = none

structure Worker.Moves (w t : Worker) : Prop where
  «instance» : t.instance = w.instance
  limits : t.limits = w.limits
  trust : t.trust = w.trust
  sequence : w.sequence ≤ t.sequence
  leases : w.nextLease ≤ t.nextLease
  fenced : w.fenced = true → t.fenced = true
  residencies : ∀ binding r', t.resident.lookup binding = some r' →
    (∃ r, w.resident.lookup binding = some r ∧ r.Continues r') ∨ w.nextLease < r'.counter

theorem Worker.Moves.refl (w : Worker) : w.Moves w :=
  ⟨rfl, rfl, rfl, le_refl _, le_refl _, id, fun _ r found => .inl ⟨r, found, .refl r⟩⟩

variable {w t : Worker}

theorem Worker.Moves.trans (first : w.Moves t) (second : t.Moves u) :
    w.Moves u where
  «instance» := second.instance.trans first.instance
  limits := second.limits.trans first.limits
  trust := second.trust.trans first.trust
  sequence := first.sequence.trans second.sequence
  leases := first.leases.trans second.leases
  fenced before := second.fenced (first.fenced before)
  residencies binding r'' found := by
    rcases second.residencies binding r'' found with ⟨r', found', continues⟩ | new
    · rcases first.residencies binding r' found' with ⟨r, found'', continues'⟩ | new
      · exact .inl ⟨r, found'', continues'.trans continues⟩
      · right
        rw [Resident.counter, continues.lease]
        exact new
    · exact .inr (first.leases.trans_lt new)

variable {binding : Digest}

/-- Two residencies with one counter, in this order of time, are the same. -/
theorem Worker.Moves.same_lease (moves : w.Moves t) (sound : w.Sound)
    (before : w.resident.lookup binding = some r) (after : t.resident.lookup binding' = some r')
    (counter : r'.counter = r.counter) : binding' = binding ∧ r.Continues r' := by
  have given := sound.leased binding r before
  rcases moves.residencies binding' r' after with ⟨q, earlier, continues⟩ | _
  · have same : q.counter = r.counter := by
      rw [← counter, Resident.counter, Resident.counter, continues.lease]
    have here := sound.apart binding' binding q r earlier before same
    rw [here, before] at earlier
    cases earlier
    exact ⟨here, continues⟩
  · omega

/-- A counter that is given out and not resident does not come back. -/
theorem Worker.Moves.not_reused (moves : w.Moves t) (given : counter ≤ w.nextLease)
    (absent : ∀ binding r, w.resident.lookup binding = some r → r.counter ≠ counter) :
    ∀ binding r, t.resident.lookup binding = some r → r.counter ≠ counter := by
  intro binding r' after
  rcases moves.residencies binding r' after with ⟨r, earlier, continues⟩ | _
  · rw [Resident.counter, continues.lease]
    exact absent binding r earlier
  · omega

structure Worker.Keeps (w t : Worker) : Prop where
  sound : t.Sound
  moves : w.Moves t

theorem Worker.Keeps.trans (first : w.Keeps t) (second : t.Keeps u) : w.Keeps u :=
  ⟨second.sound, first.moves.trans second.moves⟩

/-- Counters grow, and no residency is new. -/
theorem Worker.Sound.beside (sound : w.Sound) (identity : t.instance = w.instance)
    (limits : t.limits = w.limits) (trust : t.trust = w.trust)
    (sequence : w.sequence ≤ t.sequence) (leases : w.nextLease ≤ t.nextLease)
    (fenced : t.fenced = w.fenced) (size : t.resident.size ≤ w.resident.size)
    (lookup : ∀ binding r, t.resident.lookup binding = some r →
      w.resident.lookup binding = some r) : w.Keeps t := by
  constructor
  · constructor
    · rw [limits]
      exact size.trans sound.room
    · intro binding r found
      exact (sound.leased binding r (lookup binding r found)).trans leases
    · intro binding r found
      rw [limits]
      exact sound.within binding r (lookup binding r found)
    · intro binding binding' r r' found found'
      exact sound.apart binding binding' r r' (lookup _ r found) (lookup _ r' found')
    · intro closed binding
      rw [fenced] at closed
      cases found : t.resident.lookup binding with
      | none => rfl
      | some r =>
        have kept := lookup binding r found
        rw [sound.fenced closed binding] at kept
        cases kept
  · refine ⟨identity, limits, trust, sequence, leases, ?_, ?_⟩
    · intro closed
      rw [fenced]
      exact closed
    · intro binding r found
      exact .inl ⟨r, lookup binding r found, .refl r⟩

theorem Worker.Sound.drops (sound : w.Sound) (drops : w.Drops t) : w.Keeps t := by
  have same := drops.same
  exact sound.beside (by rw [same]) (by rw [same]) (by rw [same]) (by rw [same]) (by rw [same])
    (by rw [same]) drops.size drops.lookup

/-- A residency is opened, in a worker that is not fenced. -/
theorem Worker.Sound.opened (sound : w.Sound) (unfenced : w.fenced = false)
    (opened : Opened w binding r t) : w.Keeps t := by
  cases opened with
  | resident => exact ⟨sound, .refl w⟩
  | fresh absent room counter unused =>
    have counted : r.counter = w.nextLease + 1 := counter
    constructor
    · constructor
      · have size := size_insert_of_absent absent r
        have larger : FiniteMap.size (w.resident.insert binding r) ≤ w.limits.residentKeys := by
          rw [size]
          exact room
        exact larger
      · intro other r' found
        rcases lookup_insert_cases found with ⟨_, rfl⟩ | ⟨_, found⟩
        · exact counter.le
        · have below := sound.leased other r' found
          exact below.trans (Nat.le_succ _)
      · intro other r' found
        rcases lookup_insert_cases found with ⟨_, rfl⟩ | ⟨_, found⟩
        · rw [unused]
          exact Nat.zero_le _
        · exact sound.within other r' found
      · intro other other' r₁ r₂ found found' same
        rcases lookup_insert_cases found with ⟨first, rfl⟩ | ⟨_, found⟩
        · rcases lookup_insert_cases found' with ⟨second, _⟩ | ⟨_, found'⟩
          · rw [first, second]
          · have below := sound.leased other' r₂ found'
            omega
        · have below := sound.leased other r₁ found
          rcases lookup_insert_cases found' with ⟨_, rfl⟩ | ⟨_, found'⟩
          · omega
          · exact sound.apart other other' r₁ r₂ found found' same
      · intro closed
        have isOpen : w.fenced = true := closed
        rw [unfenced] at isOpen
        cases isOpen
    · refine ⟨rfl, rfl, rfl, le_refl _, Nat.le_succ _, id, ?_⟩
      intro _ r' found
      rcases lookup_insert_cases found with ⟨_, rfl⟩ | ⟨_, found⟩
      · omega
      · exact .inl ⟨r', found, .refl r'⟩

/-- The residency that is used goes on, the others are as before. -/
theorem Worker.used_continues (found : w.resident.lookup binding = some r)
    (present : (w.used binding r).resident.lookup other = some r') :
    ∃ r₀, w.resident.lookup other = some r₀ ∧ r₀.Continues r' := by
  rcases lookup_insert_cases present with ⟨rfl, rfl⟩ | ⟨_, same⟩
  · exact ⟨r, found, rfl, rfl, rfl, Nat.le_succ _⟩
  · exact ⟨r', same, .refl r'⟩

theorem Worker.Sound.used (sound : w.Sound) (unfenced : w.fenced = false)
    (found : w.resident.lookup binding = some r) (below : r.uses < w.limits.usesPerResidency) :
    w.Keeps (w.used binding r) := by
  constructor
  · constructor
    · have size := size_insert_of_present found { r with uses := r.uses + 1 }
      exact size.le.trans sound.room
    · intro other r' present
      obtain ⟨r₀, earlier, continues⟩ := Worker.used_continues found present
      rw [Resident.counter, continues.lease]
      exact sound.leased other r₀ earlier
    · intro other r' present
      rcases lookup_insert_cases present with ⟨_, rfl⟩ | ⟨_, same⟩
      · exact below
      · exact sound.within other r' same
    · intro other other' _ _ present present' same
      obtain ⟨q₁, earlier₁, continues₁⟩ := Worker.used_continues found present
      obtain ⟨q₂, earlier₂, continues₂⟩ := Worker.used_continues found present'
      apply sound.apart other other' q₁ q₂ earlier₁ earlier₂
      rw [Resident.counter, Resident.counter, ← continues₁.lease, ← continues₂.lease]
      exact same
    · intro closed
      have isOpen : w.fenced = true := closed
      rw [unfenced] at isOpen
      cases isOpen
  · refine ⟨rfl, rfl, rfl, le_refl _, le_refl _, id, ?_⟩
    intro _ _ present
    exact .inl (Worker.used_continues found present)

section
variable [Sha256] [Ed25519] [AuthorityJson] {w t : Worker} {events : List WorkerCallEvent}

theorem Accepted.keeps (accepted : Accepted w signed context grant binding t) (sound : w.Sound) :
    w.Keeps t := by
  rw [accepted.consumed]
  exact sound.beside rfl rfl rfl accepted.newer.le (le_refl _) rfl (le_refl _) fun _ _ => id

omit [Sha256] [Ed25519] [AuthorityJson] in
theorem Opened.still (opened : Opened w binding r t) (unfenced : w.fenced = false) :
    t.fenced = false := by
  cases opened with
  | resident | fresh => exact unfenced

theorem Accepted.still (accepted : Accepted w signed context grant binding t) :
    t.fenced = false := by
  rw [accepted.consumed]
  exact accepted.unfenced

theorem Executed.keeps
    (executed : Executed w signed context events result t) (sound : w.Sound) : w.Keeps t := by
  cases executed with
  | refused => exact ⟨sound, .refl w⟩
  | unopened _ accepted raised =>
    have first := accepted.keeps sound
    exact first.trans (first.sound.beside rfl rfl rfl (le_refl _) raised rfl (le_refl _)
      fun _ _ => id)
  | unused _ accepted opened drops =>
    have first := accepted.keeps sound
    have second := first.sound.opened accepted.still opened
    exact (first.trans second).trans (second.sound.drops drops)
  | used accepted opened below drops =>
    have first := accepted.keeps sound
    have second := first.sound.opened accepted.still opened
    have third := second.sound.used (opened.still accepted.still) opened.found below
    exact ((first.trans second).trans third).trans (third.sound.drops drops)

end

theorem Worker.keeps_revoked (w : Worker) (generation : NonZeroU64) :
    w.Keeps { w with generation, fenced := true, resident := ∅ } := by
  have none (binding : Digest) : (∅ : FiniteMap Digest Resident).lookup binding = none := rfl
  constructor
  · refine ⟨Nat.zero_le _, ?_, ?_, ?_, fun _ => none⟩
    · nofun
    · nofun
    · nofun
  · refine ⟨rfl, rfl, rfl, le_refl _, le_refl _, fun _ => rfl, ?_⟩
    nofun

variable [Sha256] [Ed25519] [AuthorityJson] {w t : Worker}

omit [Sha256] [AuthorityJson] in
theorem Worker.Applies.revoked (applies : w.Applies bytes events t) : ∃ generation,
      t = { w with generation, fenced := true, resident := ∅ } ∧ w.fenced = false := by
  obtain ⟨_, command, _, now, _, _, _, _, _, applied⟩ := applies
  rcases applyRevocation_cases command now w with ⟨e, failed⟩ | ⟨ok, unfenced⟩
  · rw [failed] at applied
    cases applied
  · rw [ok] at applied
    cases applied
    exact ⟨command.authority.generation, rfl, unfenced⟩

theorem Handled.keeps (handled : Handled w request events result t)
    (sound : w.Sound) : w.Keeps t := by
  cases handled with
  | @executed _ _ now _ _ _ _ _ _ _ executed =>
    have first := sound.drops (w.expireAt_drops now)
    exact first.trans (executed.keeps first.sound)
  | expired => exact sound.drops (w.expireAt_drops _)
  | revoked _ _ ended =>
    rcases ended with rfl | applies
    · exact ⟨sound, .refl t⟩
    · obtain ⟨generation, rfl, _⟩ := applies.revoked
      exact w.keeps_revoked generation
  | reserved _ ended =>
    rcases ended with rfl | ⟨_, _, _, rfl⟩
    · exact ⟨sound, .refl t⟩
    · exact sound.beside rfl rfl rfl (le_refl _) (le_refl _) rfl (le_refl _) fun _ _ => id
  | generated generated =>
    cases generated with
    | refused => exact ⟨sound, .refl w⟩
    | consumed _ _ begun | complete begun =>
      exact sound.beside rfl rfl rfl begun.newer.le (le_refl _) rfl (le_refl _) fun _ _ => id

theorem Serves.keeps {entry : Entry} (serves : Serves w entry t) (sound : w.Sound) : w.Keeps t :=
  serves.handled.keeps sound

theorem runs_keep {labels : List Entry} (steps : Steps Serves w labels t) (sound : w.Sound) :
    w.Keeps t := by
  induction steps with
  | nil => exact ⟨sound, .refl _⟩
  | cons first _ ih =>
    have head := first.keeps sound
    exact head.trans (ih head.sound)

end KeyRack.CryptoWorker
