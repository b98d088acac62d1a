import KeyRack.Lib.Schedule
import KeyRack.Properties.GateTurns

/-!
# Recovery with nothing in flight

In every run of calls, constructions, wrapping owners and recoveries of one library: the
library is finalized and initialized only while nothing is admitted, nothing is admitted
from a successful quiesce to the drop of its guard, the count of the gate is the number
of the admitted, and a retry is permitted only after a reinitialization that came after
the generation that the caller had read.
-/
namespace KeyRack.Pkcs11

open Process Trace List

/-! ### Who is admitted -/

abbrev Past : Type := List (Nat × ModuleEvent)

def liveAfter (live : List Nat) : Nat × ModuleEvent → List Nat
  | (i, ⟨.tryAdmit, true⟩) => i :: live
  | (i, ⟨.leave, _⟩) => live.erase i
  | _ => live

/-- The admitted, in a history. -/
def live (past : Past) : List Nat := past.foldl liveAfter []

def advancing : ModuleCall → Nat
  | .advanceGeneration => 1
  | _ => 0

/-- How often the generation was advanced. -/
def advances (past : Past) : Nat := (past.map fun made => advancing made.2.1).sum

structure GateBooks (past : Past) (w : ModuleState) : Prop where
  admitted : ∀ i, i ∈ live past ↔ (phase (eventsOf i past)).isLive = true
  distinct : (live past).Nodup
  count : w.gate.inFlight = (live past).length
  locked : ∀ i, (phase (eventsOf i past)).isLocked = true → w.reinit = some i
  closed : ∀ i, (phase (eventsOf i past)).isClosing = true → w.gate.closed = true
  quiet : ∀ i, phase (eventsOf i past) = .quiet → w.gate.inFlight = 0
  generation : w.generation = advances past % 2 ^ 64

variable {past : Past} {w : ModuleState} {i j : Nat} {c : ModuleCall}

theorem phase_step (event : ModuleEvent) : phase (eventsOf j (past ++ [(i, event)])) =
    if j = i then (phase (eventsOf i past)).after event else phase (eventsOf j past) := by
  split
  next same => rw [same, eventsOf_concat_self, phase_concat]
  next other => rw [eventsOf_concat_ne (Ne.symm other)]

/-- What holds of the participants in some phases, where one participant changes its phase. -/
theorem phase_step_imp (P : Phase → Prop) {Q : Nat → Prop}
    (mine : P ((phase (eventsOf i past)).after event) → Q i)
    (others : ∀ j, j ≠ i → P (phase (eventsOf j past)) → Q j) (j : Nat)
    (holds : P (phase (eventsOf j (past ++ [(i, event)])))) : Q j := by
  rw [phase_step] at holds
  split at holds
  next same => exact same ▸ mine holds
  next other => exact others j other holds

theorem live_concat (made : Nat × ModuleEvent) :
    live (past ++ [made]) = liveAfter (live past) made := by
  simp [live]

theorem advances_concat (made : Nat × ModuleEvent) :
    advances (past ++ [made]) = advances past + advancing made.2.1 := by
  simp [advances]

section
variable (books : GateBooks past w)
include books

/-- An event that changes nothing of what the gate and the lock depend on. -/
theorem GateBooks.frame {p : Phase} (here : phase (eventsOf i past) = p)
    (world : w'.gate = w.gate ∧ w'.reinit = w.reinit)
    (lives : ∀ live, liveAfter live (i, event) = live)
    (generation : w'.generation = (advances past + advancing event.1) % 2 ^ 64)
    (same : (p.after event).isLive = p.isLive ∧ (p.after event).isLocked = p.isLocked ∧
      (p.after event).isClosing = p.isClosing)
    (quiet : p.after event = .quiet → p = .quiet) : GateBooks (past ++ [(i, event)]) w' := by
  obtain ⟨gate, reinit⟩ := world
  obtain ⟨isLive, isLocked, isClosing⟩ := same
  subst here
  constructor
  · intro j
    rw [live_concat, lives, books.admitted j, phase_step]
    split
    next same => rw [same, isLive]
    next => rfl
  · rw [live_concat, lives]
    exact books.distinct
  · rw [gate, live_concat, lives]
    exact books.count
  · rw [reinit]
    exact phase_step_imp (·.isLocked = true) (isLocked ▸ books.locked i) fun j _ => books.locked j
  · rw [gate]
    exact phase_step_imp (·.isClosing = true) (isClosing ▸ books.closed i) fun j _ => books.closed j
  · rw [gate]
    exact phase_step_imp (· = .quiet) (books.quiet i ∘ quiet) fun j _ => books.quiet j
  · rw [generation, advances_concat]

/-- Who has the lock is alone with it; who takes it is alone too. -/
theorem GateBooks.others_unlocked (mine : w.reinit = some i ∨ w.reinit = none) (j : Nat)
    (other : j ≠ i) : (phase (eventsOf j past)).isLocked = false := by
  cases locked : (phase (eventsOf j past)).isLocked with
  | false => rfl
  | true =>
    have theirs := books.locked j locked
    rcases mine with mine | free
    · exact absurd (Option.some.inj (theirs.symm.trans mine)) other
    · cases theirs.symm.trans free

/-- A change of the gate or the lock by the only one that may have the lock. -/
theorem GateBooks.exclusive {p : Phase} (here : phase (eventsOf i past) = p)
    (mine : w.reinit = some i ∨ w.reinit = none) (inFlight : w'.gate.inFlight = w.gate.inFlight)
    (lives : ∀ live, liveAfter live (i, event) = live)
    (generation : w'.generation = (advances past + advancing event.1) % 2 ^ 64)
    (outside : p.isLive = false ∧ (p.after event).isLive = false)
    (locked : (p.after event).isLocked = true → w'.reinit = some i)
    (closed : (p.after event).isClosing = true → w'.gate.closed = true)
    (quiet : p.after event = .quiet → w.gate.inFlight = 0) :
    GateBooks (past ++ [(i, event)]) w' := by
  have alone := books.others_unlocked mine
  subst here
  constructor
  · intro j
    rw [live_concat, lives, books.admitted j, phase_step]
    split
    next same => rw [same, outside.1, outside.2]
    next => rfl
  · rw [live_concat, lives]
    exact books.distinct
  · rw [inFlight, live_concat, lives]
    exact books.count
  · refine phase_step_imp (·.isLocked = true) locked fun j other holds => ?_
    cases (alone j other).symm.trans holds
  · refine phase_step_imp (·.isClosing = true) closed fun j other holds => ?_
    cases (alone j other).symm.trans (Phase.isLocked_of_isClosing holds)
  · rw [inFlight]
    refine phase_step_imp (· = .quiet) quiet fun j other holds => ?_
    have none := alone j other
    rw [holds] at none
    cases none
  · rw [generation, advances_concat]

theorem GateBooks.admit (idle : phase (eventsOf i past) = .idle) (isOpen : w.gate.closed = false) :
    GateBooks (past ++ [(i, ⟨.tryAdmit, true⟩)])
      { w with gate := { w.gate with inFlight := w.gate.inFlight + 1 } } where
  admitted j := by
    rw [live_concat, phase_step, liveAfter, mem_cons, books.admitted j]
    split
    next same => simp [same, Phase.after, Phase.isLive]
    next other => simp [other]
  distinct := by
    rw [live_concat]
    refine nodup_cons.mpr ⟨?_, books.distinct⟩
    rw [books.admitted i, idle]
    nofun
  count := by
    rw [live_concat, liveAfter, length_cons, ← books.count]
  locked := phase_step_imp (·.isLocked = true) nofun fun j _ => books.locked j
  closed := phase_step_imp (·.isClosing = true) nofun fun j _ => books.closed j
  quiet := by
    refine phase_step_imp (· = .quiet) nofun fun j _ holds => ?_
    cases isOpen.symm.trans (books.closed j (by rw [holds]; rfl))
  generation := by
    rw [advances_concat]
    exact books.generation

theorem GateBooks.leave (admitted : phase (eventsOf i past) = .admitted) :
    GateBooks (past ++ [(i, ⟨.leave, ()⟩)]) { w with gate := w.gate.leave } where
  admitted j := by
    rw [live_concat, phase_step, liveAfter, books.distinct.mem_erase_iff, books.admitted j]
    split
    next same => simp [same, Phase.after, Phase.isLive]
    next other => simp [other]
  distinct := by
    rw [live_concat]
    exact books.distinct.erase i
  count := by
    have mine : i ∈ live past := by
      rw [books.admitted i, admitted]
      rfl
    rw [live_concat, liveAfter, length_erase_of_mem mine, ← books.count]
    rfl
  locked := phase_step_imp (·.isLocked = true) nofun fun j _ => books.locked j
  closed := phase_step_imp (·.isClosing = true) nofun fun j _ => books.closed j
  quiet := by
    refine phase_step_imp (· = .quiet) nofun fun j _ holds => ?_
    have none := books.quiet j holds
    change w.gate.inFlight - 1 = 0
    omega
  generation := by
    rw [advances_concat]
    exact books.generation

end

/-- What a pass of `quiesce` finds and leaves, where it closes the gate or has closed it. -/
theorem GateState.drain_cases (state : GateState) {first last : Bool}
    (shut : first = true ∨ state.closed = true) :
    (state.drain first last).2.inFlight = state.inFlight ∧
      (((state.drain first last).1 = .quiet ∧ state.inFlight = 0 ∧
          (state.drain first last).2.closed = true) ∨
        ((state.drain first last).1 = .waiting ∧ last = false ∧
          (state.drain first last).2.closed = true) ∨
        (state.drain first last).1 = .gaveUp) := by
  obtain ⟨inFlight, closed⟩ := state
  have closing : first = false → closed = true := fun again => by simpa [again] using shut
  unfold GateState.drain
  cases inFlight with
  | zero => cases first <;> simp [closing]
  | succ => cases first <;> cases last <;> simp [closing]

section
variable (books : GateBooks past w)
include books

theorem GateBooks.drain {first last : Bool}
    (here : phase (eventsOf i past) = p) (allowed : p.allows (.drain first last) = true) :
    GateBooks (past ++ [(i, ⟨.drain first last, (w.gate.drain first last).1⟩)])
      { w with gate := (w.gate.drain first last).2 } := by
  have holds : p.isLocked = true ∧ p.isLive = false := by
    cases p <;> cases first <;> first | exact ⟨rfl, rfl⟩ | cases allowed
  have locked : w.reinit = some i := books.locked i (by rw [here]; exact holds.1)
  have shut : first = true ∨ w.gate.closed = true := by
    cases first with
    | true => exact .inl rfl
    | false =>
      right
      apply books.closed i
      rw [here]
      cases p <;> first | rfl | cases allowed
  obtain ⟨same, found⟩ := @GateState.drain_cases w.gate first last shut
  generalize w.gate.drain first last = drained at same found
  obtain ⟨_, _⟩ := drained
  rcases found with ⟨rfl, none, closed⟩ | ⟨rfl, rfl, closed⟩ | rfl
  · exact books.exclusive here (.inl locked) same (fun _ => rfl) books.generation
      ⟨holds.2, rfl⟩ (fun _ => locked) (fun _ => closed) fun _ => none
  · exact books.exclusive here (.inl locked) same (fun _ => rfl) books.generation
      ⟨holds.2, rfl⟩ (fun _ => locked) (fun _ => closed) nofun
  · exact books.exclusive here (.inl locked) same (fun _ => rfl) books.generation
      ⟨holds.2, rfl⟩ (fun _ => locked) nofun nofun

theorem GateBooks.step (answered : ModuleAnswers w i c r w')
    (permitted : Permitted (eventsOf i past) c) : GateBooks (past ++ [(i, ⟨c, r⟩)]) w' := by
  generalize here : phase (eventsOf i past) = p
  rw [Permitted, here] at permitted
  rcases permitted with allowed | ⟨rfl, quiet, -⟩
  · have plain (event : ModuleEvent) (lives : ∀ live, liveAfter live (i, event) = live)
        (advanced : advancing event.1 = 0) (same : p.after event = p)
        (world : w'.gate = w.gate ∧ w'.reinit = w.reinit ∧ w'.generation = w.generation) :
        GateBooks (past ++ [(i, event)]) w' := by
      apply books.frame here ⟨world.1, world.2.1⟩ lives
      · rw [world.2.2, advanced]
        exact books.generation
      · rw [same]
        exact ⟨rfl, rfl, rfl⟩
      · rw [same]
        exact id
    cases answered with
    | tryAdmit =>
      obtain rfl : p = .idle := by cases p <;> first | rfl | cases allowed
      cases closed : w.gate.closed with
      | true =>
        have refused : w.gate.tryAdmit = (false, w.gate) := by simp [GateState.tryAdmit, closed]
        rw [refused] at plain ⊢
        exact plain ⟨.tryAdmit, false⟩ (fun _ => rfl) rfl rfl ⟨rfl, rfl, rfl⟩
      | false =>
        have admitted : w.gate.tryAdmit =
            (true, { w.gate with inFlight := w.gate.inFlight + 1 }) := by
          simp [GateState.tryAdmit, closed]
        rw [admitted]
        exact books.admit here closed
    | leave =>
      apply books.leave
      cases p <;> first | exact here | cases allowed
    | openSession result =>
      obtain rfl : p = .admitted := by cases p <;> first | rfl | cases allowed
      cases result with
      | error => exact plain _ (fun _ => rfl) rfl rfl ⟨rfl, rfl, rfl⟩
      | ok =>
        exact books.frame here ⟨rfl, rfl⟩ (fun _ => rfl) books.generation ⟨rfl, rfl, rfl⟩ nofun
    | closeSession =>
      obtain rfl : p = .inSession := by cases p <;> first | rfl | cases allowed
      exact books.frame here ⟨rfl, rfl⟩ (fun _ => rfl) books.generation ⟨rfl, rfl, rfl⟩ nofun
    | lockReinit free =>
      obtain rfl : p = .idle := by cases p <;> first | rfl | cases allowed
      exact books.exclusive here (.inr free) rfl (fun _ => rfl) books.generation ⟨rfl, rfl⟩
        (fun _ => rfl) nofun nofun
    | unlockReinit =>
      obtain rfl : p = .locked := by cases p <;> first | rfl | cases allowed
      have mine : w.reinit = some i := books.locked i (by rw [here]; rfl)
      exact books.exclusive here (.inl mine) rfl (fun _ => rfl) books.generation ⟨rfl, rfl⟩ nofun
        nofun nofun
    | drain => exact books.drain here allowed
    | reopen =>
      obtain rfl : p = .quiet := by cases p <;> first | rfl | cases allowed
      have mine : w.reinit = some i := books.locked i (by rw [here]; rfl)
      exact books.exclusive here (.inl mine) rfl (fun _ => rfl) books.generation ⟨rfl, rfl⟩
        (fun _ => mine) nofun nofun
    | generation | cleanupUnconfirmed | native | poisonedReinit | mayAttemptNow | recordAttempt
    | cFinalize | cInitialize | setLeftUninitialized =>
      exact plain _ (fun _ => rfl) rfl (by cases p <;> rfl) ⟨rfl, rfl, rfl⟩
    | advanceGeneration => cases p <;> cases allowed
  · cases answered
    refine books.frame (here.trans quiet) ⟨rfl, rfl⟩ (fun _ => rfl) ?_ ⟨rfl, rfl, rfl⟩ fun _ => rfl
    rw [books.generation, Nat.mod_add_mod]
    rfl

/-! ### What each call finds -/

/-- What a call finds in the history before it. -/
def Finds (before : Past) (i : Nat) : ModuleEvent → Prop
  | ⟨.cFinalize, _⟩ | ⟨.cInitialize, _⟩ =>
    live before = [] ∧ ∀ j, phase (eventsOf j before) ≠ .inSession
  | ⟨.tryAdmit, true⟩ => ∀ j, phase (eventsOf j before) ≠ .quiet
  | ⟨.leave, _⟩ => i ∈ live before
  | ⟨.generation, generation⟩ => generation = advances before % 2 ^ 64
  | ⟨.advanceGeneration, _⟩ => ∃ earlier, eventsOf i before =
      earlier ++ [⟨.cInitialize, .ok⟩] ++ [⟨.setLeftUninitialized false, ()⟩]
  | _ => True

theorem GateBooks.deserted (quiet : phase (eventsOf i past) = .quiet) :
    live past = [] ∧ ∀ j, phase (eventsOf j past) ≠ .inSession := by
  have none : live past = [] := by
    rw [← length_eq_zero_iff, ← books.count]
    exact books.quiet i quiet
  refine ⟨none, fun j inSession => ?_⟩
  have admitted := (books.admitted j).mpr (by rw [inSession]; rfl)
  rw [none] at admitted
  cases admitted

theorem GateBooks.finds (answered : ModuleAnswers w i c r w')
    (permitted : Permitted (eventsOf i past) c) : Finds past i ⟨c, r⟩ := by
  generalize here : phase (eventsOf i past) = p
  rw [Permitted, here] at permitted
  rcases permitted with allowed | ⟨rfl, -, earlier, events⟩
  · cases answered with
    | generation => exact books.generation
    | tryAdmit =>
      cases closed : w.gate.closed with
      | true =>
        simp only [GateState.tryAdmit, closed, if_true]
        trivial
      | false =>
        simp only [GateState.tryAdmit, closed]
        intro j quiet
        have shut := books.closed j (by rw [quiet]; rfl)
        rw [closed] at shut
        cases shut
    | leave =>
      apply (books.admitted i).mpr
      cases p <;> first | (rw [here]; rfl) | cases allowed
    | cFinalize | cInitialize =>
      apply books.deserted
      cases p <;> first | exact here | cases allowed
    | advanceGeneration => cases p <;> cases allowed
    | _ => trivial
  · exact ⟨earlier, events⟩

end

/-! ### Who is told to retry -/

/-- A later generation was read, or the generation was advanced. -/
def Renewed (seen : Nat) (events : List ModuleEvent) : Prop :=
  (∃ generation ≠ seen, ⟨.generation, generation⟩ ∈ events) ∨ ⟨.advanceGeneration, ()⟩ ∈ events

theorem Renewed.concat {own : List ModuleEvent} (renewed : Renewed seen own)
    (event : ModuleEvent) : Renewed seen (own ++ [event]) := by
  rcases renewed with ⟨generation, later, member⟩ | advanced
  · exact .inl ⟨generation, later, mem_append_left _ member⟩
  · exact .inr (mem_append_left _ advanced)

section
variable {seen : Nat} {own : List ModuleEvent}

/-- A part that permits a retry only after one of the two. -/
def Renews (seen : Nat) (own : List ModuleEvent) (p : ModuleM RecoveryOutcome) : Prop :=
  Obeys (fun _ _ => True) (fun later outcome => outcome.permitsRetry = true → Renewed seen later)
    own p

theorem renews_make
    (rest : ∀ r, Renews seen (own ++ [⟨c, r⟩]) (f r)) : Renews seen own (c.make >>= f) :=
  ⟨trivial, rest⟩

theorem renews_pure
    (holds : outcome.permitsRetry = true → Renewed seen own) : Renews seen own (pure outcome) :=
  holds

/-- What is done after such a part. -/
theorem Renews.then {c : ModuleCall} (renews : Renews seen own p) :
    Renews seen own (p >>= fun outcome => c.make >>= fun _ => pure outcome) := by
  apply obeys_bind.mpr
  apply renews.mono
  intro _ _ renewed
  apply renews_make
  intro r
  exact renews_pure fun permits => (renewed permits).concat _

theorem restartLibrary_renews : Renews seen own restartLibrary := by
  apply renews_make
  intro _
  apply renews_make
  intro _
  apply renews_make
  intro initialized
  cases initialized with
  | ok =>
    apply renews_make
    intro _
    apply renews_make
    intro _
    apply renews_pure
    intro _
    right
    simp
  | alreadyInitialized | error =>
    apply renews_make
    intro _
    exact renews_pure nofun

theorem recoverLocked_renews (waits : Nat) : Renews seen own (recoverLocked waits seen) := by
  apply renews_make
  intro generation
  split
  next later =>
    apply renews_pure
    intro _
    left
    exact ⟨generation, later, by simp⟩
  next =>
    apply renews_make
    intro may
    cases may with
    | false => exact renews_pure nofun
    | true =>
      apply obeys_bind.mpr
      apply obeys_of_ensures
      intro _ quiet
      cases quiet with
      | false => exact renews_pure nofun
      | true => exact restartLibrary_renews.then

theorem recover_renews (waits : Nat) : Renews seen own (recover waits seen) := by
  apply renews_make
  intro locked
  cases locked with
  | false => exact renews_pure nofun
  | true => exact (recoverLocked_renews waits).then

end

/-- Where the generation has grown it was advanced. -/
theorem exists_advance (grown : advances more ≠ 0) : ∃ j, (j, ⟨.advanceGeneration, ()⟩) ∈ more := by
  induction more with
  | nil => exact absurd rfl grown
  | cons made more ih =>
    obtain ⟨j, c, r⟩ := made
    by_cases advance : c = .advanceGeneration
    · subst advance
      exact ⟨j, mem_cons_self⟩
    · have none : advancing c = 0 := by
        cases c <;> first | rfl | exact absurd rfl advance
      have later : advances more ≠ 0 := by
        simpa [advances, none] using grown
      obtain ⟨k, member⟩ := ih later
      exact ⟨k, mem_cons_of_mem _ member⟩

theorem advances_append (past more : Past) :
    advances (past ++ more) = advances past + advances more := by
  simp [advances]

/-- The library was reinitialized between a generation that was read and the end. -/
theorem advanced_since {before events after : List ModuleEvent}
    (always : Always (fun before made => Finds before made.1 made.2) past)
    (own : eventsOf i past = before ++ events ++ after)
    (read : ⟨.generation, seen⟩ ∈ before) (renewed : Renewed seen events) :
    ∃ earlier between later j, past = earlier ++ (i, ⟨.generation, seen⟩) :: between ++ later ∧
      eventsOf i (earlier ++ (i, ⟨.generation, seen⟩) :: between) <+: before ++ events ∧
      (j, ⟨.advanceGeneration, ()⟩) ∈ between := by
  obtain ⟨first, _, rfl⟩ := append_of_mem read
  simp only [append_assoc, cons_append] at own
  obtain ⟨earlier, _, rfl, mine, theirs⟩ := exists_of_eventsOf own
  have since (between : Past) : eventsOf i (earlier ++ (i, ⟨.generation, seen⟩) :: between) =
      first ++ ⟨.generation, seen⟩ :: eventsOf i between := by
    rw [← mine]
    simp [eventsOf]
  rcases renewed with ⟨generation, later, member⟩ | advanced
  · obtain ⟨_, fourth, rfl⟩ := append_of_mem member
    rw [append_assoc, cons_append, ← append_assoc] at theirs
    obtain ⟨between, last, rfl, betweenOwn, -⟩ := exists_of_eventsOf theirs
    have observed : seen = advances earlier % 2 ^ 64 := always earlier _ _ rfl
    have again : generation = advances (earlier ++ (i, ⟨.generation, seen⟩) :: between) % 2 ^ 64 :=
      always _ (i, ⟨.generation, generation⟩) last (by simp)
    have grown : advances between ≠ 0 := by
      intro none
      apply later
      have same : advances ((i, ⟨.generation, seen⟩) :: between) = 0 := by
        simpa [advances, advancing] using none
      rw [again, advances_append, same, Nat.add_zero, ← observed]
    obtain ⟨j, advance⟩ := exists_advance grown
    refine ⟨earlier, between, (i, ⟨.generation, generation⟩) :: last, j, by simp, ?_, advance⟩
    rw [since, betweenOwn]
    exact ⟨⟨.generation, generation⟩ :: fourth, by simp⟩
  · obtain ⟨_, fourth, rfl⟩ := append_of_mem advanced
    rw [append_assoc, cons_append, ← append_assoc] at theirs
    obtain ⟨between, last, rfl, betweenOwn, -⟩ := exists_of_eventsOf theirs
    refine ⟨earlier, between ++ [(i, ⟨.advanceGeneration, ()⟩)], last, i, by simp, ?_, by simp⟩
    rw [since, eventsOf_concat_self, betweenOwn]
    exact ⟨fourth, by simp⟩

abbrev ModuleSystem : Type :=
  System ModuleState Nat ModuleCall ModuleCall.Reply (Except CallError Unit)

abbrev ModuleLabel : Type := Label Nat ModuleCall ModuleCall.Reply Unit

theorem steps_guarded (steps : Steps (Step moduleRules) ⟨.new, fun _ => .idle⟩ labels t) :
    GateBooks (history labels) t.world ∧
      Always (fun before made => Finds before made.1 made.2) (history labels) := by
  have start : GateBooks [] .new := by
    constructor <;> simp [live, advances, ModuleState.new, Phase.isLive, Phase.isLocked,
      Phase.isClosing]
  apply (steps_answered (P := fun past w => GateBooks past w ∧
    Always (fun before made => Finds before made.1 made.2) past) (fun p => participants_obey)
    _ _ _ steps (fun _ => rfl) ⟨start, always_nil⟩).2
  · rintro _ w i c r _ answered permitted ⟨books, always⟩
    exact ⟨books.step answered permitted, always.concat (books.finds answered permitted)⟩
  · nofun
  · nofun

/-- In every run: the count of the gate is the number of the admitted, every call finds
    what `Finds` says, and who is told to retry had read its generation before the library
    was reinitialized. -/
theorem module_recovered_alone {labels : List ModuleLabel} {t : ModuleSystem}
    (steps : Steps (Step moduleRules) ⟨.new, fun _ => .idle⟩ labels t) :
    t.world.gate.inFlight = (live (history labels)).length ∧
    Always (fun before made => Finds before made.1 made.2) (history labels) ∧
    ∀ i waits seen before events after outcome,
      own i labels = before ++ events ++ after → ⟨.generation, seen⟩ ∈ before →
      Execution (recover waits seen) events outcome → outcome.permitsRetry = true →
      ∃ earlier between later j,
        history labels = earlier ++ (i, ⟨.generation, seen⟩) :: between ++ later ∧
        eventsOf i (earlier ++ (i, ⟨.generation, seen⟩) :: between) <+: before ++ events ∧
        (j, ⟨.advanceGeneration, ()⟩) ∈ between := by
  obtain ⟨books, always⟩ := steps_guarded steps
  refine ⟨books.count, always, ?_⟩
  intro i waits seen _ events _ _ own read execution permits
  have renewed : Renewed seen ([] ++ events) := (recover_renews waits).execution execution permits
  rw [← eventsOf_history] at own
  exact advanced_since always own read renewed

/-! ### A call that fails, recovers and is retried -/

/-- Native calls fail as the schedule says; the rest succeeds at once. -/
def sampleReply (w : ModuleState) (i : Nat) (fails : Bool) :
    (c : ModuleCall) → Option {x : c.Reply × ModuleState // ModuleAnswers w i c x.1 x.2}
  | .generation => some ⟨(_, _), .generation w i⟩
  | .tryAdmit => some ⟨(_, _), .tryAdmit w i⟩
  | .leave => some ⟨(_, _), .leave w i⟩
  | .cleanupUnconfirmed => some ⟨(_, _), .cleanupUnconfirmed w i false⟩
  | .openSession => some ⟨(_, _), .openSession w i (.ok ())⟩
  | .native =>
    if fails then some ⟨(_, _), .native w i (.error (.provider "CKR_DEVICE_ERROR"))⟩
    else some ⟨(_, _), .native w i (.ok ())⟩
  | .closeSession => some ⟨(_, _), .closeSession w i (.ok ())⟩
  | .lockReinit =>
    if free : w.reinit = none then some ⟨(_, _), .lockReinit w i free⟩ else none
  | .unlockReinit => some ⟨(_, _), .unlockReinit w i⟩
  | .mayAttemptNow => some ⟨(w.last.mayAttemptNow 0, w), .mayAttemptNow w i 0⟩
  | .drain first last => some ⟨(_, _), .drain w i first last⟩
  | .reopen => some ⟨(_, _), .reopen w i⟩
  | .recordAttempt => some ⟨(_, _), .recordAttempt w i 0⟩
  | .cFinalize => some ⟨(_, _), .cFinalize w i true⟩
  | .cInitialize => some ⟨(_, _), .cInitialize w i .ok⟩
  | .setLeftUninitialized down => some ⟨(_, _), .setLeftUninitialized w i down⟩
  | .advanceGeneration => some ⟨(_, _), .advanceGeneration w i⟩

def samplePlayer : Player moduleRules Unit Bool where
  program _ := run ⟨0, 0, 0, 0⟩ 1
  starts _ := .inl ⟨⟨0, 0, 0, 0⟩, 1, rfl⟩
  answer := sampleReply

open Move in
/-- Two operations fail; the first reinitializes the library, and the second, which had
    read the generation before that, is told that another caller did. -/
def sampleSchedule : List (Move Nat Unit Bool Unit) :=
  [start 0 (), start 1 ()] ++ replicate 3 (advance 0 false) ++ [advance 0 true] ++
    replicate 3 (advance 1 false) ++ [advance 1 true] ++ replicate 2 (advance 1 false) ++
    replicate 13 (advance 0 false) ++ replicate 3 (advance 1 false)

/-- What the second has called up to its recovery, and in it. -/
def sampleBefore : List ModuleEvent :=
  [⟨.generation, 0⟩, ⟨.tryAdmit, true⟩, ⟨.openSession, .ok ()⟩,
    ⟨.native, .error (.provider "CKR_DEVICE_ERROR")⟩, ⟨.closeSession, .ok ()⟩, ⟨.leave, ()⟩]

def sampleRecovery : List ModuleEvent :=
  [⟨.lockReinit, true⟩, ⟨.generation, 1⟩, ⟨.unlockReinit, ()⟩]

theorem sampleRecovery_executes : Execution (recover 0 0) sampleRecovery .alreadyRecovered := by
  apply @Execution.call ModuleCall ModuleCall.Reply _ .lockReinit _ true
  apply @Execution.call ModuleCall ModuleCall.Reply _ .generation _ 1
  apply @Execution.call ModuleCall ModuleCall.Reply _ .unlockReinit _ ()
  exact .done _

theorem sampleSchedule_plays :
    (samplePlayer.plays ⟨.new, fun _ => .idle⟩ sampleSchedule).map (fun played =>
      (own 1 played.1.1, played.1.2.world.gate.inFlight)) =
        some (sampleBefore ++ sampleRecovery ++ [], 0) := rfl

theorem module_recovered_alone_retried : ∃ (labels : List ModuleLabel) (t : ModuleSystem),
    Steps (Step moduleRules) ⟨.new, fun _ => .idle⟩ labels t ∧
    own 1 labels = sampleBefore ++ sampleRecovery ++ [] ∧ live (history labels) = [] ∧
    ∃ earlier between later j,
      history labels = earlier ++ (1, ⟨.generation, 0⟩) :: between ++ later ∧
      (j, ⟨.advanceGeneration, ()⟩) ∈ between := by
  obtain ⟨⟨⟨labels, t⟩, steps⟩, -, same⟩ := Option.map_eq_some_iff.mp sampleSchedule_plays
  obtain ⟨own, none⟩ := Prod.mk.inj same
  obtain ⟨count, -, retried⟩ := module_recovered_alone steps
  obtain ⟨earlier, between, later, j, same, -, advanced⟩ :=
    retried 1 0 0 _ _ _ _ own mem_cons_self sampleRecovery_executes rfl
  refine ⟨labels, t, steps, own, ?_, earlier, between, later, j, same, advanced⟩
  rw [← length_eq_zero_iff, ← count, none]

end KeyRack.Pkcs11
