import KeyRack.Service.Lease

/-!
# What the participants of the lease cleanup do

The slot of a use goes from hand to hand: from the request to the task of the open, back
with the guard, into the pending map and out of it again, until it is dropped. What a
participant may do next is said in terms of its own calls and replies.
-/
namespace KeyRack.Service.Lease

open Process LeaseCleanup List

/-! ### Slots in hand -/

def usesOf : Option Slot → List Nat
  | some slot => [slot.use]
  | none => []

def usesIn : Opened → List Nat
  | .ok guard => usesOf guard.slot
  | .error _ => []

/-- The uses whose slots come to the caller. -/
def grabs : LeaseEvent → List Nat
  | ⟨.reserve, some slot⟩ => [slot.use]
  | ⟨.fetchWork, .opening slot _⟩ => [slot.use]
  | ⟨.awaitOpen _, .received opened⟩ => usesIn opened
  | ⟨.awaitOpen _, .dropped (some opened)⟩ => usesIn opened
  | ⟨.removePending _, some entry⟩ => usesOf entry.2
  | ⟨.takePending, entries⟩ => entries.flatMap fun entry => usesOf entry.2.2
  | _ => []

/-- The uses whose slots leave the caller. -/
def releases : LeaseEvent → List Nat
  | ⟨.spawnOn (.opening slot _), _⟩ => [slot.use]
  | ⟨.send _ opened, true⟩ => usesIn opened
  | ⟨.insertPending _ entry, _⟩ => usesOf entry.2
  | ⟨.dropSlot slot, _⟩ => [slot.use]
  | _ => []

/-- The slots that a participant has after its events. -/
def Hand (own : List LeaseEvent) : Nat → Prop :=
  own.foldl (fun held event use => (held use ∧ use ∉ releases event) ∨ use ∈ grabs event)
    fun _ => False

variable {event : LeaseEvent} {use : Nat}

theorem hand_concat {own : List LeaseEvent} :
    Hand (own ++ [event]) use ↔
      (Hand own use ∧ use ∉ releases event) ∨ use ∈ grabs event := by
  simp [Hand]

theorem hand_nil : ¬Hand [] use := id

/-! ### What a history tells -/

/-- The uses that an event takes out of the pending map. -/
def removals : LeaseEvent → List Nat
  | ⟨.removePending _, some entry⟩ => [entry.1.use]
  | ⟨.takePending, entries⟩ => entries.map fun entry => entry.2.1.use
  | _ => []

/-- The uses that an event records finally: the close succeeded, failed or was given up. -/
def finals : LeaseEvent → List Nat
  | ⟨.record .scheduled _ _, _⟩ => []
  | ⟨.record _ subject _, _⟩ => [subject.use]
  | _ => []

/-- One of the events names the use. -/
def Noted (f : LeaseEvent → List Nat) (own : List LeaseEvent) (use : Nat) : Prop :=
  ∃ event ∈ own, use ∈ f event

abbrev Removed : List LeaseEvent → Nat → Prop := Noted removals

abbrev FinallyRecorded : List LeaseEvent → Nat → Prop := Noted finals

section
variable (own : List LeaseEvent)

/-- The guard that came to the request, with its lease. -/
def Received (guard : LeaseGuard) : Prop :=
  ∃ channel, ⟨.awaitOpen channel, .received (.ok guard)⟩ ∈ own ∨
    ⟨.awaitOpen channel, .dropped (some (.ok guard))⟩ ∈ own

/-- The participant has the lease of the use: it opened it or received its guard. -/
def HasLease (use : Nat) (lease : WrappedKeyLease) : Prop :=
  (∃ request, ⟨.fetchWork, .opening ⟨use⟩ request⟩ ∈ own ∧
    ⟨.openWrappedKey request, some (.ok lease)⟩ ∈ own) ∨
  ∃ guard, Received own guard ∧ guard.subject.use = use ∧ guard.lease = some lease

/-- A close task for the lease was spawned under this handle. -/
def SpawnedClose (task : TaskId) (lease : WrappedKeyLease) : Prop :=
  ∃ provider, ⟨.spawnOn (.closing provider lease), task⟩ ∈ own

/-- The request was told that its close of the lease succeeded. -/
def ClosedInside (use : Nat) (lease : WrappedKeyLease) : Prop :=
  (∃ guard, Received own guard ∧ guard.subject.use = use ∧ guard.lease = some lease) ∧
    ∃ task closure, SpawnedClose own task lease ∧
      ⟨.awaitClose task, some (some (.ok closure))⟩ ∈ own

end

theorem noted_concat {own : List LeaseEvent} :
    Noted f (own ++ [event]) use ↔ Noted f own use ∨ use ∈ f event := by
  simp [Noted, or_and_right, exists_or]

/-- A guard as the open makes it. -/
structure Fresh (guard : LeaseGuard) : Prop where
  slot : guard.slot = some ⟨guard.subject.use⟩
  inFlight : guard.inFlight = none
  lease : guard.lease.isSome

/-- The replies are as the shared state gives them. -/
structure Honest (own : List LeaseEvent) : Prop where
  guards : ∀ guard, Received own guard → Fresh guard
  removed : ∀ id subject slot, ⟨.removePending id, some (subject, slot)⟩ ∈ own →
    slot = some ⟨subject.use⟩
  -- a participant gets back the entry that it put in
  returned : ∀ id entry entry', ⟨.insertPending id entry, ()⟩ ∈ own →
    ⟨.removePending id, some entry'⟩ ∈ own → entry' = entry
  taken : ∀ entries, ⟨.takePending, entries⟩ ∈ own →
    (∀ entry ∈ entries, entry.2.2 = some ⟨entry.2.1.use⟩) ∧
      (entries.map fun entry => entry.2.1.use).Nodup

/-! ### What may come next -/

/-- A slot is dropped before its lease is there, where the open failed, after a close
    that succeeded inside the request or after its removal from the pending map. -/
def Justified (own : List LeaseEvent) (use : Nat) : Prop :=
  (∃ stopped, own = [⟨.reserve, some ⟨use⟩⟩, ⟨.loadStopped, stopped⟩]) ∨
  own = [⟨.reserve, some ⟨use⟩⟩, ⟨.loadStopped, false⟩, ⟨.tryCurrent, false⟩] ∨
  (∃ request reply, own = [⟨.fetchWork, .opening ⟨use⟩ request⟩,
    ⟨.openWrappedKey request, reply⟩] ∧ ∀ lease, reply ≠ some (.ok lease)) ∨
  (∃ lease, ClosedInside own use lease) ∨ Removed own use

/-- What a call has to find in its caller's history. -/
def Requires (own : List LeaseEvent) : LeaseCall → Prop
  | .reserve => own = []
  | .spawnOn (.opening slot _) =>
    own = [⟨.reserve, some slot⟩, ⟨.loadStopped, false⟩, ⟨.tryCurrent, true⟩]
  | .spawnOn (.cleanup id _ lease inFlight) =>
    ∃ subject slot, ⟨.insertPending id (subject, slot), ()⟩ ∈ own ∧
      HasLease own subject.use lease ∧ ∀ task, inFlight = some task → SpawnedClose own task lease
  | .fetchWork => own = []
  | .openWrappedKey request => ∃ slot, own = [⟨.fetchWork, .opening slot request⟩]
  | .complete answer => ∃ provider lease, own =
      [⟨.fetchWork, .closing provider lease⟩, ⟨.closeWrappedKey provider lease, answer⟩]
  | .send use (.ok guard) => Hand own use ∧ guard.subject.use = use ∧ Fresh guard ∧
      ¬Removed own use ∧ ∃ lease, guard.lease = some lease ∧ HasLease own use lease
  | .dropSlot slot => Hand own slot.use ∧ Justified own slot.use
  | .insertPending id (subject, slot) => slot = some ⟨subject.use⟩ ∧ Hand own subject.use ∧
      ¬Removed own subject.use ∧ own.getLast? = some ⟨.nextId, id⟩ ∧
      ∃ lease, HasLease own subject.use lease
  | .takePending => ⟨.storeStopped, ()⟩ ∈ own
  | .record .scheduled _ _ => True
  | .record outcome subject _ => Removed own subject.use ∧ ¬FinallyRecorded own subject.use ∧
      (outcome = .closedAfterReturn → ∃ id provider lease inFlight slot task closure,
        ⟨.fetchWork, .cleanup id provider lease inFlight⟩ ∈ own ∧
        ⟨.removePending id, some (subject, slot)⟩ ∈ own ∧
        ⟨.join task, some (.ok closure)⟩ ∈ own ∧
        (inFlight = some task ∨ SpawnedClose own task lease))
  | _ => True

/-- What a participant may call. -/
def Permitted (own : List LeaseEvent) (c : LeaseCall) : Prop := Honest own → Requires own c

/-- Only a drain returns a number, after it took the pending entries. -/
def Finishes (own : List LeaseEvent) (result : Option Nat) : Prop :=
  Honest own → result.isSome → ∃ entries, ⟨.takePending, entries⟩ ∈ own

/-! ### Appending an event -/

section
variable {own : List LeaseEvent} {event : LeaseEvent}

theorem Honest.of_concat (honest : Honest (own ++ [event])) : Honest own where
  guards guard received := by
    obtain ⟨channel, member | member⟩ := received
    · exact honest.guards guard ⟨channel, .inl (mem_append_left _ member)⟩
    · exact honest.guards guard ⟨channel, .inr (mem_append_left _ member)⟩
  removed id subject slot member := honest.removed id subject slot (mem_append_left _ member)
  returned id entry entry' inserted removed :=
    honest.returned id entry entry' (mem_append_left _ inserted)
      (mem_append_left _ removed)
  taken entries member := honest.taken entries (mem_append_left _ member)

/-- Nothing is asked of a participant whose replies the state cannot have given. -/
theorem obeys_of_dishonest {α : Type} {ensures : List LeaseEvent → α → Prop}
    (vacuous : ∀ own a, ¬Honest own → ensures own a) (dishonest : ¬Honest own) (p : LeaseM α) :
    Obeys Permitted ensures own p := by
  induction p generalizing own with
  | done a => exact vacuous own a dishonest
  | call _ _ ih =>
    apply And.intro fun honest => absurd honest dishonest
    intro r
    exact ih r fun honest => dishonest honest.of_concat

/-- Replies that the state cannot have given are left aside. -/
theorem obeys_of_honest (vacuous : ∀ own a, ¬Honest own → ensures own a)
    (given : Honest own → Obeys Permitted ensures own p) : Obeys Permitted ensures own p := by
  by_cases honest : Honest own
  · exact given honest
  · exact obeys_of_dishonest vacuous honest p

end

/-! ### Parts of the programs -/

section
variable {α β : Type} {own : List LeaseEvent}

theorem obeys_make_then (requires : Requires own c)
    (rest : ∀ r, Obeys Permitted ensures (own ++ [⟨c, r⟩]) (f r)) :
    Obeys Permitted ensures own (c.make >>= f) := ⟨fun _ => requires, rest⟩

/-- A part that promises nothing. -/
abbrev Keeps (own : List LeaseEvent) (p : LeaseM α) : Prop :=
  Obeys Permitted (fun _ _ => True) own p

theorem obeys_make (requires : Requires own c) : Keeps own c.make :=
  ⟨fun _ => requires, fun _ => trivial⟩

/-- Such a part, before a result that needs nothing. -/
theorem obeys_then_of_true (part : Keeps own p)
    (rest : ∀ later b, Obeys Permitted ensures later (f b)) :
    Obeys Permitted ensures own (p >>= f) := by
  apply obeys_bind.mpr
  apply part.mono
  intro later b _
  exact rest later b

theorem obeys_spawn_then
    (requires : Requires (own ++ [⟨.loadStopped, false⟩] ++ [⟨.tryCurrent, true⟩])
      (.spawnOn work))
    (stopped : Obeys Permitted ensures (own ++ [⟨.loadStopped, true⟩]) (f none))
    (outside : Obeys Permitted ensures
      (own ++ [⟨.loadStopped, false⟩] ++ [⟨.tryCurrent, false⟩]) (f none))
    (spawned : ∀ task, Obeys Permitted ensures
      (own ++ [⟨.loadStopped, false⟩] ++ [⟨.tryCurrent, true⟩] ++ [⟨.spawnOn work, task⟩])
      (f (some task))) : Obeys Permitted ensures own (spawn work >>= f) := by
  refine ⟨fun _ => trivial, fun isStopped => ?_⟩
  cases isStopped with
  | true => exact stopped
  | false =>
    refine ⟨fun _ => trivial, fun runtime => ?_⟩
    cases runtime with
    | false => exact outside
    | true => exact ⟨fun _ => requires, spawned⟩

/-- An entry that is taken out comes with its slot, which is dropped. -/
theorem obeys_takePending_then {id : Nat} (vacuous : ∀ own a, ¬Honest own → ensures own a)
    (absent : Obeys Permitted ensures (own ++ [⟨.removePending id, none⟩]) (f none))
    (present : ∀ subject, Obeys Permitted ensures
      (own ++ [⟨.removePending id, some (subject, some ⟨subject.use⟩)⟩] ++
        [⟨.dropSlot ⟨subject.use⟩, ()⟩]) (f (some subject))) :
    Obeys Permitted ensures own (takePending id >>= f) := by
  refine ⟨fun _ => trivial, fun taken => ?_⟩
  cases taken with
  | none => exact absent
  | some entry =>
    obtain ⟨subject, slot⟩ := entry
    refine obeys_of_honest vacuous fun honest => ?_
    cases honest.removed id subject slot mem_concat_self
    have removed : Removed (own ++ [⟨.removePending id, some (subject, some ⟨subject.use⟩)⟩])
        subject.use := noted_concat.mpr (.inr (by simp [removals]))
    have hand : Hand (own ++ [⟨.removePending id, some (subject, some ⟨subject.use⟩)⟩])
        subject.use := hand_concat.mpr (.inr (by simp [grabs, usesOf]))
    exact ⟨fun _ => ⟨hand, .inr (.inr (.inr (.inr removed)))⟩, fun _ => present subject⟩

end

/-- The participant has the slot and the lease of a use that was never taken out of the
    pending map. -/
structure Ready (own : List LeaseEvent) (use : Nat) (lease : WrappedKeyLease) : Prop where
  hand : Hand own use
  kept : ¬Removed own use
  unrecorded : ¬FinallyRecorded own use
  hasLease : HasLease own use lease

/-- An event that moves no slot and says nothing about a lease. -/
def Idle : LeaseEvent → Prop
  | ⟨.loadStopped, _⟩ => True
  | ⟨.tryCurrent, _⟩ => True
  | ⟨.spawnOn (.closing _ _), _⟩ => True
  | ⟨.operate _, _⟩ => True
  | ⟨.awaitClose _, _⟩ => True
  | ⟨.join _, _⟩ => True
  | ⟨.nextId, _⟩ => True
  | ⟨.send _ _, false⟩ => True
  | _ => False

section
variable {own : List LeaseEvent}

theorem Idle.moves_nothing (idle : Idle event) :
    grabs event = [] ∧ releases event = [] ∧ removals event = [] ∧ finals event = [] := by
  obtain ⟨c, r⟩ := event
  cases c <;> first | exact idle.elim | exact ⟨rfl, rfl, rfl, rfl⟩ | skip
  case spawnOn work => cases work <;> first | exact idle.elim | exact ⟨rfl, rfl, rfl, rfl⟩
  case send => cases r <;> first | exact idle.elim | exact ⟨rfl, rfl, rfl, rfl⟩

theorem Received.concat {guard : LeaseGuard} (received : Received own guard) :
    Received (own ++ [event]) guard := by
  obtain ⟨channel, member | member⟩ := received
  · exact ⟨channel, .inl (mem_append_left _ member)⟩
  · exact ⟨channel, .inr (mem_append_left _ member)⟩

theorem HasLease.concat (hasLease : HasLease own use lease) :
    HasLease (own ++ [event]) use lease := by
  obtain ⟨request, fetched, opened⟩ | ⟨guard, received, rest⟩ := hasLease
  · exact .inl ⟨request, mem_append_left _ fetched, mem_append_left _ opened⟩
  · exact .inr ⟨guard, received.concat, rest⟩

theorem unnoted_concat (before : ¬Noted f own use)
    (other : f event = []) : ¬Noted f (own ++ [event]) use := by
  simp [noted_concat, before, other]

theorem Ready.idle (ready : Ready own use lease) (idle : Idle event) :
    Ready (own ++ [event]) use lease where
  hand := by
    apply hand_concat.mpr
    left
    rw [idle.moves_nothing.2.1]
    exact ⟨ready.hand, not_mem_nil⟩
  kept := unnoted_concat ready.kept idle.moves_nothing.2.2.1
  unrecorded := unnoted_concat ready.unrecorded idle.moves_nothing.2.2.2
  hasLease := ready.hasLease.concat

end

/-! ### Detaching -/

variable {own : List LeaseEvent}

/-- An entry that was just put in and is taken back is the participant's own. -/
theorem recordAbandoned_obeys {id : Nat}
    (inserted : ⟨.insertPending id (subject, some ⟨subject.use⟩), ()⟩ ∈ own)
    (unrecorded : ¬FinallyRecorded own subject.use) :
    Keeps
      (own ++ [⟨.removePending id, some (taken, some ⟨taken.use⟩)⟩] ++
        [⟨.dropSlot ⟨taken.use⟩, ()⟩]) (record .abandoned subject none) := by
  refine obeys_of_honest (fun _ _ _ => trivial) fun honest => ?_
  cases honest.returned id _ _ (mem_append_left _ (mem_append_left _ inserted))
    (mem_append_left _ mem_concat_self)
  refine obeys_make ⟨?_, ?_, nofun⟩
  · exact noted_concat.mpr (.inl (noted_concat.mpr (.inr (by simp [removals]))))
  · exact unnoted_concat (unnoted_concat unrecorded rfl) rfl

theorem detach_obeys (ready : Ready own subject.use lease)
    (closes : ∀ task, inFlight = some task → SpawnedClose own task lease) :
    Keeps own
      (detach provider lease subject inFlight (some ⟨subject.use⟩)) := by
  refine ⟨fun _ => trivial, fun id => ?_⟩
  have numbered : Ready (own ++ [⟨.nextId, id⟩]) subject.use lease := ready.idle trivial
  refine ⟨fun _ => ⟨rfl, numbered.hand, numbered.kept, by simp, lease, numbered.hasLease⟩,
    fun _ => ?_⟩
  have unrecorded : ¬FinallyRecorded
      (own ++ [⟨.nextId, id⟩] ++ [⟨.insertPending id (subject, some ⟨subject.use⟩), ()⟩])
      subject.use := unnoted_concat numbered.unrecorded rfl
  apply obeys_spawn_then
  · refine ⟨subject, some ⟨subject.use⟩, by simp, ?_, ?_⟩
    · exact numbered.hasLease.concat.concat.concat
    · intro task same
      obtain ⟨closer, spawned⟩ := closes task same
      exact ⟨closer, by simp [spawned]⟩
  · -- stopped: the entry is taken back, unless a drain has it
    refine obeys_takePending_then (fun _ _ _ => trivial) (by trivial) fun taken => ?_
    exact recordAbandoned_obeys (by simp) (unnoted_concat unrecorded rfl)
  · refine obeys_takePending_then (fun _ _ _ => trivial) (by trivial) fun taken => ?_
    exact recordAbandoned_obeys (by simp)
      (unnoted_concat (unnoted_concat unrecorded rfl) rfl)
  · intro _
    exact obeys_make trivial

theorem drop_obeys {guard : LeaseGuard}
    (slot : guard.slot = some ⟨guard.subject.use⟩) (holds : guard.lease = some lease)
    (ready : Ready own guard.subject.use lease)
    (closes : ∀ task, guard.inFlight = some task → SpawnedClose own task lease) :
    Keeps own guard.drop := by
  rw [LeaseGuard.drop, holds, slot]
  exact detach_obeys ready closes

end KeyRack.Service.Lease
