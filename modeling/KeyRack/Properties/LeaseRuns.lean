import KeyRack.Properties.LeaseOwnership
import KeyRack.Worker.Custody

/-!
# Leases, slots and records

In every run of requests, tasks and drains: the slot of a lease stays taken until the
lease is closed inside its request or leaves the pending map, a lease leaves the pending
map at most once and is recorded at most once, and nothing whose detach has returned is
pending after a drain. All of this holds until a number of a pending close is drawn again.
-/
namespace KeyRack.Service.Lease

open Process Trace LeaseCleanup List Function

variable {w : LeaseState} {i : Participant} {c : LeaseCall} {past : Past}

/-! ### Slots of open leases -/

/-- The request closed the lease itself, or the use left the pending map. -/
def Resolved (past : Past) (n : Nat) (lease : WrappedKeyLease) : Prop :=
  (∃ i, ClosedInside (eventsOf i past) n lease ∧ CloseSucceeded past lease) ∨
    n ∈ usesAlong removals past

variable {lease : WrappedKeyLease} {n : Nat}

theorem ClosedInside.mono {own later : List LeaseEvent} (inside : ClosedInside own n lease)
    (sub : own ⊆ later) : ClosedInside later n lease := by
  obtain ⟨⟨guard, ⟨channel, received⟩, named, holds⟩, task, closure, ⟨provider, spawned⟩, told⟩ :=
    inside
  refine ⟨⟨guard, ⟨channel, ?_⟩, named, holds⟩, task, closure, ⟨provider, sub spawned⟩, sub told⟩
  exact received.imp (fun made => sub made) fun made => sub made

theorem Resolved.concat (resolved : Resolved past n lease) :
    Resolved (past ++ [(i, event)]) n lease := by
  rcases resolved with ⟨j, inside, closed⟩ | removed
  · exact .inl ⟨j, inside.mono (eventsOf_grows j past _).subset, closed.concat⟩
  · right
    rw [usesAlong_concat]
    exact mem_append_left _ removed

/-- A use is opened once. -/
theorem OpenedUse.unique (books : Books past w)
    (opened : OpenedUse past n lease) (opened' : OpenedUse past n lease') : lease = lease' := by
  obtain ⟨j, request, fetched, returned⟩ := opened
  obtain ⟨j', request', fetched', returned'⟩ := opened'
  obtain ⟨k, rfl, spawned⟩ := books.tells _ _ fetched
  obtain ⟨_, rfl, spawned'⟩ := books.tells _ _ fetched'
  cases books.same_opening spawned spawned'
  obtain ⟨_, begins⟩ := books.tells _ _ returned
  obtain ⟨_, begins'⟩ := books.tells _ _ returned'
  have same := (prefix_of_prefix_length_le begins begins' (by simp)).eq_of_length (by simp)
  simp only [List.cons.injEq, Sigma.mk.injEq] at same
  obtain ⟨-, ⟨called, answered⟩, -⟩ := same
  cases answered
  rfl

variable {provider : ProviderId}

/-- A slot that is dropped for a good reason is not that of an open lease. -/
theorem resolved_of_justified (books : Books past w) (opened : OpenedUse past n lease)
    (justified : Justified (eventsOf i past) n) : Resolved past n lease := by
  obtain ⟨j, request, fetched, returned⟩ := opened
  obtain ⟨k, rfl, spawned⟩ := books.tells _ _ fetched
  have begins : opensWith ⟨n⟩ request k <+: _ := books.tells _ _ spawned.choose_spec
  -- a request that drops its slot itself has not spawned its open
  have unspawned (early : List LeaseEvent) (own : eventsOf i past = ⟨.reserve, some ⟨n⟩⟩ :: early)
      (short : early.length < 3) : False := by
    cases books.tells i ⟨.reserve, some ⟨n⟩⟩ (mem_eventsOf.mp (by simp [own]))
    have lengths := begins.length_le
    rw [own, length_cons] at lengths
    simp only [opensWith, length_cons, length_nil] at lengths
    omega
  rcases justified with ⟨_, own⟩ | own | ⟨other, _, own, failed⟩ | ⟨_, inside⟩ |
    removed
  · exact (unspawned _ own (by simp)).elim
  · exact (unspawned _ own (by simp)).elim
  · -- the open that failed is the one that returned the lease
    obtain ⟨_, rfl, spawned'⟩ := books.tells i ⟨.fetchWork, .opening ⟨n⟩ other⟩
      (mem_eventsOf.mp (by simp [own]))
    cases books.same_opening spawned spawned'
    have mine := mem_eventsOf.mpr returned
    rw [own] at mine
    simp only [mem_cons, Sigma.mk.injEq, not_mem_nil, or_false] at mine
    rcases mine with ⟨called, -⟩ | ⟨called, answered⟩
    · cases called
    · exact absurd (eq_of_heq answered).symm (failed lease)
  · cases OpenedUse.unique books (books.opened (.inr inside.1))
      ⟨.task k, request, fetched, returned⟩
    have closing := inside
    obtain ⟨_, task, _, ⟨_, spawned⟩, told⟩ := closing
    exact .inl ⟨i, inside, books.closeSucceeded ⟨i, mem_eventsOf.mp spawned⟩
      (books.tells _ _ (mem_eventsOf.mp told))⟩
  · obtain ⟨event, made, taken⟩ := noted_iff.mp removed
    exact .inr (mem_usesAlong.mpr ⟨i, event, made, taken⟩)

theorem openedUse_of_concat (requires : Requires (eventsOf i past) c)
    (opened : OpenedUse (past ++ [(i, ⟨c, r⟩)]) n lease) :
    OpenedUse past n lease ∨ ∃ request,
      (⟨c, r⟩ : LeaseEvent) = ⟨.openWrappedKey request, some (.ok lease)⟩ ∧
        (i, ⟨.fetchWork, .opening ⟨n⟩ request⟩) ∈ past := by
  obtain ⟨j, request, fetched, returned⟩ := opened
  rcases mem_concat.mp returned with old | new
  · rcases mem_concat.mp fetched with old' | new'
    · exact .inl ⟨j, request, old', old⟩
    · -- the work is fetched before anything is opened
      cases new'
      have own := mem_eventsOf.mpr old
      rw [requires] at own
      cases own
  · cases new
    rcases mem_append.mp fetched with old' | new'
    · exact .inr ⟨request, rfl, old'⟩
    · simp at new'

theorem resolved_step (books : Books past w) (owned : Owned past w)
    (resolved : ∀ n lease, OpenedUse past n lease → n ∈ usesAlong drops past →
      Resolved past n lease)
    (requires : Requires (eventsOf i past) c) (n : Nat) (lease : WrappedKeyLease)
    (opened : OpenedUse (past ++ [(i, ⟨c, r⟩)]) n lease)
    (dropped : n ∈ usesAlong drops (past ++ [(i, ⟨c, r⟩)])) :
    Resolved (past ++ [(i, ⟨c, r⟩)]) n lease := by
  rw [usesAlong_concat, mem_append] at dropped
  rcases openedUse_of_concat requires opened with before | ⟨_, now, fetched⟩
  · rcases dropped with gone | drops
    · exact (resolved n lease before gone).concat
    · cases mem_drops.mp drops
      exact (resolved_of_justified books before requires.2).concat
  · -- the task that opens the lease has its slot
    cases now
    rcases dropped with gone | drops
    · obtain ⟨_, own⟩ := requires
      have first := mem_eventsOf.mpr fetched
      rw [own] at first
      cases mem_singleton.mp first
      have hand : holds past w (.thread i) n := by
        change Hand (eventsOf i past) n
        rw [own]
        simp [Hand, grabs]
      exact absurd gone (owned.not_dropped hand)
    · cases drops

/-! ### Drains -/

variable {id : Nat} {entry : PendingEntry}

theorem pending_kept (answered : LeaseAnswers w i c r w')
    (found : w.pending.lookup id = some entry) :
    w'.pending.lookup id = some entry ∨ entry.1.use ∈ removals ⟨c, r⟩ ∨
      ∃ other, c = .insertPending id other := by
  cases answered <;> first | exact .inl found | skip
  case insertPending number inserted =>
    by_cases same : id = number
    · exact .inr (.inr ⟨inserted, by rw [same]⟩)
    · exact .inl ((AList.lookup_insert_ne same).trans found)
  case removePending number =>
    by_cases same : id = number
    · subst same
      rw [found]
      exact .inr (.inl (by simp [removals]))
    · exact .inl ((AList.lookup_erase_ne same).trans found)
  case takePending =>
    exact .inr (.inl (mem_map.mpr ⟨(id, entry), mem_entries.mpr found, rfl⟩))

/-- An entry stays in the pending map until it is removed; a use is entered once. -/
structure EnteredOnce (past : Past) (w : LeaseState) : Prop where
  kept : ∀ id entry, Inserted past id entry →
    w.pending.lookup id = some entry ∨ entry.1.use ∈ usesAlong removals past
  uses : ∀ id id' entry entry', Inserted past id entry → Inserted past id' entry' →
    entry.1.use = entry'.1.use → id = id'

theorem EnteredOnce.step (entered : EnteredOnce past w) (books : Books past w)
    (owned : Owned past w) (answered : LeaseAnswers w i c r w')
    (requires : Requires (eventsOf i past) c) : EnteredOnce (past ++ [(i, ⟨c, r⟩)]) w' := by
  -- a use that is entered now was never entered
  have fresh {id id' : Nat} {entry entry' : PendingEntry} (now : c = .insertPending id entry)
      (earlier : Inserted past id' entry') : entry'.1.use ≠ entry.1.use := by
    subst now
    intro same
    obtain ⟨-, hand, unremoved, -⟩ := requires
    have mine : holds past w (.thread i) entry.1.use := hand
    rcases entered.kept id' entry' earlier with pending | removed
    · have two := owned.sole (.thread i) (.pending id') _ mine ⟨entry', pending, same⟩
      cases two
    · rw [same] at removed
      rcases owned.removed _ _ mine removed with gone | ⟨j, this, gone⟩
      · cases gone
      · cases this
        exact unremoved gone
  constructor
  · intro id entry inserted
    rw [usesAlong_concat, mem_append]
    rcases happened_concat.mp inserted with old | new
    · rcases entered.kept id entry old with pending | removed
      · rcases pending_kept answered pending with still | removed | ⟨_, now⟩
        · exact .inl still
        · exact .inr (.inr removed)
        · subst now
          obtain ⟨j, old⟩ := old
          cases books.numbered.sole (.inl i) (.inr (j, entry)) id requires.2.2.2.1 old
      · exact .inr (.inl removed)
    · cases new
      cases answered
      exact .inl (AList.lookup_insert _)
  · intro id id' entry entry' inserted inserted' same
    rcases happened_concat.mp inserted with old | new
    · rcases happened_concat.mp inserted' with old' | new'
      · exact entered.uses id id' entry entry' old old' same
      · cases new'
        exact absurd same (fresh rfl old)
    · cases new
      rcases happened_concat.mp inserted' with old' | new'
      · exact absurd same.symm (fresh rfl old')
      · cases new'
        rfl

/-- What a call does for the entries that are there before it: who takes its entry back
    and who drains leave it removed, and after a drain the owner is stopped. -/
def Settles (before : Past) : Participant × LeaseEvent → Prop
  | (i, ⟨.removePending id, taken⟩) => ∀ entry, ⟨.insertPending id entry, ()⟩ ∈ eventsOf i before →
      entry.1.use ∈ usesAlong removals (before ++ [(i, ⟨.removePending id, taken⟩)])
  | (d, ⟨.takePending, entries⟩) => ∀ id entry, Inserted before id entry →
      entry.1.use ∈ usesAlong removals (before ++ [(d, ⟨.takePending, entries⟩)])
  | (_, ⟨.loadStopped, false⟩) => ∀ d entries, (d, ⟨.takePending, entries⟩) ∉ before
  | _ => True

theorem EnteredOnce.settles (entered : EnteredOnce past w) (answered : LeaseAnswers w i c r w')
    (stops : ∀ d entries, (d, ⟨.takePending, entries⟩) ∈ past → w.stopped = true) :
    Settles past (i, ⟨c, r⟩) := by
  cases answered <;> first | trivial | skip
  case loadStopped =>
    cases running : w.stopped with
    | true => trivial
    | false =>
      intro d entries taken
      cases running.symm.trans (stops d entries taken)
  case removePending id =>
    intro entry inserted
    rw [usesAlong_concat, mem_append]
    rcases entered.kept id entry ⟨i, mem_eventsOf.mp inserted⟩ with pending | removed
    · exact .inr (by simp [pending, removals])
    · exact .inl removed
  case takePending =>
    intro id entry inserted
    rw [usesAlong_concat, mem_append]
    rcases entered.kept id entry inserted with pending | removed
    · exact .inr (mem_map.mpr ⟨(id, entry), mem_entries.mpr pending, rfl⟩)
    · exact .inl removed

/-! ### Whole runs -/

structure Accounts (limit : Nat) (past : Past) (w : LeaseState) : Prop where
  books : Books past w
  owned : Owned past w
  counted : Counted limit past w
  once : Once past
  resolved : ∀ n lease, OpenedUse past n lease → n ∈ usesAlong drops past → Resolved past n lease
  entered : EnteredOnce past w
  settled : Always Settles past

theorem accounts_new (limit : Nat) : Accounts limit [] (.new limit) where
  books := by
    have nobody (o : Participant ⊕ Participant × PendingEntry) (id : Nat) :
        ¬hasNumber [] o id := by
      cases o <;> simp [hasNumber]
    refine ⟨⟨fun o _ id has => absurd has (nobody o id), rfl,
      fun o id has => absurd has (nobody o id)⟩, ⟨?_, ?_, ?_, ?_, ?_⟩, ?_⟩ <;>
      simp [Happened, LeaseState.new]
  owned := by
    have nothing (o : Owner) (n : Nat) : ¬holds [] (.new limit) o n := by
      cases o <;> simp [holds, hand_nil, LeaseState.new]
    refine ⟨fun o _ n held => absurd held (nothing o n), fun o n held => absurd held (nothing o n),
      fun o n held => absurd held (nothing o n), ?_⟩
    simp [usesAlong]
  counted := ⟨rfl, Nat.zero_le _, nodup_nil, nodup_nil, rfl⟩
  once := by
    refine ⟨nodup_nil, nodup_nil, ?_, ?_⟩ <;> simp [Noted]
  resolved := by simp [OpenedUse]
  entered := by
    refine ⟨?_, ?_⟩ <;> simp [Happened]
  settled := always_nil

theorem Owned.pending_distinct (owned : Owned past w) : Distinct w := by
  intro id id' entry entry' found found' same
  have one := owned.sole (.pending id) (.pending id') entry.1.use ⟨entry, found, rfl⟩
    ⟨entry', found', same.symm⟩
  cases one
  rfl

theorem Accounts.step (accounts : Accounts limit past w) (answered : LeaseAnswers w i c r w')
    (permitted : Permitted (eventsOf i past) c) (few : draws (past ++ [(i, ⟨c, r⟩)]) < 2 ^ 64) :
    Accounts limit (past ++ [(i, ⟨c, r⟩)]) w' := by
  obtain ⟨books, owned, counted, once, resolved, entered, settled⟩ := accounts
  have requires := permitted (books.honest i)
  have later : Books (past ++ [(i, ⟨c, r⟩)]) w' :=
    books.step answered requires few owned.pending_distinct
  have stops (d : Participant) (entries : List (Nat × PendingEntry))
      (taken : (d, ⟨.takePending, entries⟩) ∈ past) : w.stopped = true := by
    obtain ⟨stopped, -⟩ := books.tells _ _ taken
    exact books.shows.stopped stopped
  exact ⟨later, owned.step books answered requires, counted.step owned books answered requires,
    once.step owned books answered requires later, resolved_step books owned resolved requires,
    entered.step books owned answered requires, settled.concat (entered.settles answered stops)⟩

abbrev LeaseSystem : Type :=
  System LeaseState Participant LeaseCall LeaseCall.Reply (Option Nat)

abbrev LeaseLabel : Type := Label Participant LeaseCall LeaseCall.Reply Unit

/-- A use whose lease was opened and neither closed inside its request nor removed. -/
def Unresolved (past : Past) (n : Nat) : Prop :=
  ∃ lease, OpenedUse past n lease ∧ ¬Resolved past n lease

/-- A whole detach of the subject is part of the history. -/
def DetachReturned (own : List LeaseEvent) (subject : LeaseSubject) : Prop :=
  ∃ before events after provider lease inFlight slot, own = before ++ events ++ after ∧
    Execution (detach provider lease subject inFlight slot) events ()

/-- A detach asks whether the owner has stopped, and takes its entry back if it has. -/
theorem events_of_detach
    (execution : Execution (detach provider lease subject inFlight slot) events ()) :
    ∃ id rest, events = [⟨.nextId, id⟩, ⟨.insertPending id (subject, slot), ()⟩] ++ rest ∧
      ((∃ later, rest = ⟨.loadStopped, false⟩ :: later) ∨
        ∃ taken later, rest = ⟨.loadStopped, true⟩ :: ⟨.removePending id, taken⟩ :: later) := by
  cases execution with
  | call c next id events a rest =>
    cases rest with
    | call c next _ events a rest =>
      refine ⟨id, _, rfl, ?_⟩
      cases rest with
      | call _ _ stopped _ _ rest =>
        cases stopped with
        | false => exact .inl ⟨_, rfl⟩
        | true =>
          cases rest with
          | call => exact .inr ⟨_, _, rfl⟩

theorem usesAlong_mono
    (inside : n ∈ usesAlong f (past ++ [made])) : n ∈ usesAlong f (past ++ made :: later) := by
  rw [← singleton_append, ← append_assoc, usesAlong, flatMap_append]
  exact mem_append_left _ inside

theorem not_pending_of_detachReturned (accounts : Accounts limit past w)
    (taken : (d, ⟨.takePending, entries⟩) ∈ past)
    (returned : DetachReturned (eventsOf i past) subject)
    (found : w.pending.lookup id = some entry) : entry.1.use ≠ subject.use := by
  intro same
  have kept : subject.use ∉ usesAlong removals past := by
    intro removed
    rcases accounts.owned.removed (.pending id) _ ⟨entry, found, same⟩ removed with
      gone | ⟨_, gone, -⟩
    · cases gone
    · cases gone
  obtain ⟨before, _, after, _, _, _, slot, own, execution⟩ := returned
  obtain ⟨number, _, rfl, ⟨rest, rfl⟩ | ⟨_, rest, rfl⟩⟩ := events_of_detach execution
  · -- the owner was still running, so the drain came later
    rw [append_assoc, append_assoc, ← append_assoc before, cons_append] at own
    obtain ⟨earlier, later, rfl, mine, -⟩ := exists_of_eventsOf own
    have inserted : (i, ⟨.insertPending number (subject, slot), ()⟩) ∈ earlier :=
      mem_eventsOf.mp (by simp [mine])
    have running := accounts.settled earlier _ later rfl d entries
    obtain ⟨between, last, rfl⟩ : ∃ between last, later = between ++ (d, ⟨.takePending, entries⟩) ::
        last := append_of_mem (by simpa [running] using taken)
    rw [← cons_append, ← append_assoc] at accounts kept
    exact kept (usesAlong_mono (accounts.settled _ _ last rfl number (subject, slot)
      ⟨i, by simp [inserted]⟩))
  · rw [append_assoc, append_assoc, ← append_assoc before, cons_append, ← concat_append] at own
    obtain ⟨earlier, later, rfl, mine, -⟩ := exists_of_eventsOf own
    exact kept (usesAlong_mono (accounts.settled _ _ later rfl (subject, slot) (by simp [mine])))

/-- Along every run of requests, tasks and drains in which the counter does not start
    again: the slot of an open lease is dropped only when the lease was closed inside its
    request or left the pending map, so open leases are never more than the limit; a use
    leaves the pending map once and is finally recorded once, as closed only if its lease
    was; and when a drain has returned its count, nothing is pending whose detach has
    returned. -/
theorem leases_accounted {limit : Nat} {labels : List LeaseLabel} {t : LeaseSystem}
    (run : Steps (Step (leaseRules limit)) ⟨.new limit, fun _ => .idle⟩ labels t)
    (few : draws (history labels) < 2 ^ 64) :
    (∀ use lease, OpenedUse (history labels) use lease → use ∈ usesAlong drops (history labels) →
      Resolved (history labels) use lease) ∧
    (∀ uses : List Nat, uses.Nodup → (∀ use ∈ uses, Unresolved (history labels) use) →
      uses.length ≤ t.world.occupied) ∧
    t.world.occupied ≤ limit ∧
    (usesAlong removals (history labels)).Nodup ∧ (usesAlong finals (history labels)).Nodup ∧
    (∀ i subject error, .called i ⟨.record .closedAfterReturn subject error, ()⟩ ∈ labels →
      ClosedFor (history labels) subject) ∧
    ∀ d count, t.threads d = .live (.done (some count)) →
      ∀ i subject, DetachReturned (own i labels) subject →
        ∀ id entry, t.world.pending.lookup id = some entry → entry.1.use ≠ subject.use := by
  obtain ⟨following, accounts⟩ :=
    steps_answered (P := fun past w => draws past < 2 ^ 64 → Accounts limit past w)
      (fun p startable => participants_obey startable)
      (fun past w i c r _ answered permitted accounts few =>
        (accounts ((Nat.le_add_right _ _).trans_lt (draws_concat ▸ few))).step answered permitted
          few)
      (fun _ _ _ _ _ dropped => dropped.elim) (fun _ _ _ _ changed => changed.elim) run
      (fun _ => rfl) (fun _ => accounts_new limit)
  have accounts := accounts few
  refine ⟨accounts.resolved, ?_, accounts.counted.bounded, accounts.once.removals,
    accounts.once.finals, ?_, ?_⟩
  · intro _ distinct unresolved
    apply accounts.counted.length_le accounts.books accounts.owned distinct
    · intro n member
      obtain ⟨_, ⟨i, request, fetched, -⟩, -⟩ := unresolved n member
      obtain ⟨k, rfl, _, spawned⟩ := accounts.books.tells _ _ fetched
      have begins : opensWith ⟨n⟩ request k <+: _ := accounts.books.tells _ _ spawned
      exact mem_eventsOf.mp (begins.subset (by simp [opensWith]))
    · intro n member gone
      obtain ⟨lease, opened, open'⟩ := unresolved n member
      exact open' (accounts.resolved n lease opened gone)
  · intro i subject error made
    exact accounts.books.tells _ _ (mem_history.mpr made)
  · intro d _ finished i _ returned _ _ found
    have honest := accounts.books.honest d
    rw [eventsOf_history] at honest
    obtain ⟨_, taken⟩ := following.live d _ finished honest rfl
    rw [← eventsOf_history] at taken returned
    exact not_pending_of_detachReturned accounts (mem_eventsOf.mp taken) returned found

/-! ### Uses that are detached -/

def sampleLease : WrappedKeyLease where
  handle := ⟨"child", .aes256⟩
  object := ⟨"object", by decide +kernel⟩
  contextSha256 := Vector.replicate 32 0

def sampleOpen : OpenRequest where
  provider := 0
  context := CryptoWorker.fixtureContext
  parent := ⟨"parent", .aes256⟩
  envelope := [1, 2, 3]
  used := ⟨"key", 1, "hsm"⟩

/-- What the detach of a use enters. -/
def detached (use : Nat) : PendingEntry :=
  (.new ⟨use⟩ sampleOpen.used sampleLease, some ⟨use⟩)

/-- The uses from this number on have not begun, nor have the tasks that are not spawned. -/
structure Unbegun (use : Nat) (s : LeaseSystem) : Prop where
  limit : s.world.limit = 2
  running : s.world.stopped = false
  next : s.world.next = use % 2 ^ 64
  channels : ∀ later, use ≤ later → s.world.channels later = .waiting
  requests : ∀ later, use ≤ later → s.threads (.request later) = .idle
  tasks : ∀ k, s.world.tasks.length ≤ k → s.threads (.task k) = .idle

/-- A use whose request has ended and whose task runs leaves the next ones alone. -/
theorem Unbegun.succ {use : Nat} {s : LeaseSystem} (unbegun : Unbegun use s) (w : LeaseState)
    (limit : w.limit = 2) (running : w.stopped = false) (next : w.next = wrappingSucc s.world.next)
    (spawned : s.world.tasks.length < w.tasks.length)
    (closed : w.channels = update s.world.channels use .closed) :
    Unbegun (use + 1) ⟨w, update (update s.threads (.request use) (.live (.done none)))
      (.task s.world.tasks.length) (.live program)⟩ := by
  rw [unbegun.next] at next
  refine ⟨limit, running, next.trans (Nat.mod_add_mod use _ 1), ?_, ?_, ?_⟩
  · intro later above
    rw [closed, update_of_ne (by omega)]
    exact unbegun.channels later (by omega)
  · intro later above
    dsimp only
    rw [update_of_ne (by rintro ⟨⟩), update_of_ne (by rintro ⟨⟩; omega)]
    exact unbegun.requests later (by omega)
  · intro k above
    have before := spawned.trans_le above
    dsimp only
    rw [update_of_ne (by rintro ⟨⟩; omega), update_of_ne (by rintro ⟨⟩)]
    exact unbegun.tasks k before.le

def closesNothing : LeaseLabel → Bool
  | .called _ ⟨.closeWrappedKey _ _, _⟩ => false
  | _ => true

/-- A use whose request is dropped while it waits, so that its lease is detached: in a
    runtime its close is scheduled, and outside of one it is abandoned. -/
theorem steps_detach (runtime : Bool) {use : Nat} {s : LeaseSystem} (unbegun : Unbegun use s)
    (room : s.world.occupied < 2) :
    ∃ labels t, Steps (Step (leaseRules 2)) s labels t ∧ Unbegun (use + 1) t ∧
      draws (history labels) = 1 ∧ OpenedUse (history labels) use sampleLease ∧
      labels.all closesNothing = true ∧
      usesAlong removals (history labels) = (bif runtime then [] else [use]) ∧
      t.world.pending = (bif runtime then s.world.pending.insert s.world.next (detached use)
        else (s.world.pending.insert s.world.next (detached use)).erase s.world.next) ∧
      t.world.occupied = s.world.occupied + 1 - s.world.replaced s.world.next -
        bif runtime then 0 else 1 := by
  obtain ⟨⟨limit, stopped, next, occupied, pending, counts, tasks, answers, channels⟩, threads⟩ := s
  obtain ⟨rfl, rfl, rfl, waiting, requests, unspawned⟩ := id unbegun
  have idle : update threads (.request use) (.live (.done none)) (.task tasks.length) = .idle := by
    rw [update_of_ne (by rintro ⟨⟩)]
    exact unspawned _ (Nat.le_refl _)
  have detaches : Steps (Step (leaseRules 2)) ⟨⟨2, false, use % 2 ^ 64, occupied, pending, counts,
      tasks, answers, channels⟩, threads⟩ _ _ :=
    .cons (step_started (requests use (Nat.le_refl _)) (.inl ⟨sampleOpen, 0, true, rfl⟩))
    (.cons (step_called rfl (.reserved use room))
    (.cons (step_called rfl (.loadStopped _))
    (.cons (step_called rfl (.tryCurrent _ true))
    (.cons (step_called rfl (.spawnOn _ _))
    (.cons (step_called rfl (.droppedWaiting use (waiting use (Nat.le_refl _))))
    (.cons (step_started idle (.inr (.inl rfl)))
    (.cons (step_called rfl (.fetchWork tasks.length (.opening ⟨use⟩ sampleOpen) (by simp)))
    (.cons (step_called rfl (.openWrappedKey _ _ (some (.ok sampleLease))))
    (.cons (step_called rfl (.unsent _ _ _ (update_self _ _ _)))
    (.cons (step_called rfl (.nextId _))
    (.cons (step_called rfl (.insertPending _ _ (detached use)))
    (.cons (step_called rfl (.loadStopped _))
    (.cons (step_called rfl (.tryCurrent _ runtime)) (.nil _))))))))))))))
  cases runtime with
  | true =>
    have ends := detaches.append (.cons (step_called rfl (.spawnOn _ _))
      (.cons (step_called rfl (.record _ _ _ _)) (.nil _)))
    refine ⟨_, _, ends, unbegun.succ _ rfl rfl rfl (by simp) rfl, rfl, ?_, rfl, rfl, rfl, rfl⟩
    exact ⟨.task tasks.length, sampleOpen, mem_history.mpr (by simp), mem_history.mpr (by simp)⟩
  | false =>
    have removes (w : LeaseState) (i : Participant) (id : Nat) (entry : PendingEntry)
        (found : w.pending.lookup id = some entry) : LeaseAnswers w i (.removePending id)
          (some entry) { w with pending := w.pending.erase id } := found ▸ .removePending i id
    have ends := detaches.append (.cons (step_called rfl (removes _ _ _ _ (AList.lookup_insert _)))
      (.cons (step_called rfl (.dropSlot _ _))
      (.cons (step_called rfl (.record _ _ _ _)) (.nil _))))
    refine ⟨_, _, ends, unbegun.succ _ rfl rfl rfl (by simp) rfl, rfl, ?_, rfl, rfl, rfl, rfl⟩
    exact ⟨.task tasks.length, sampleOpen, mem_history.mpr (by simp), mem_history.mpr (by simp)⟩

/-- The lease of the first use is opened, and neither closed nor removed. -/
structure LeftOpen (labels : List LeaseLabel) : Prop where
  opened : OpenedUse (history labels) 0 sampleLease
  unclosed : labels.all closesNothing = true
  kept : 0 ∉ usesAlong removals (history labels)

theorem LeftOpen.append (left : LeftOpen labels) (unclosed : more.all closesNothing = true)
    (kept : 0 ∉ usesAlong removals (history more)) : LeftOpen (labels ++ more) := by
  obtain ⟨⟨i, request, fetched, returned⟩, unclosed', kept'⟩ := left
  refine ⟨⟨i, request, ?_, ?_⟩, ?_, ?_⟩
  · exact mem_history.mpr (mem_append_left _ (mem_history.mp fetched))
  · exact mem_history.mpr (mem_append_left _ (mem_history.mp returned))
  · rw [all_append, unclosed, unclosed']
    rfl
  · rw [history, filterMap_append, usesAlong, flatMap_append, mem_append, not_or]
    exact ⟨kept', kept⟩

theorem LeftOpen.unresolved (left : LeftOpen labels) : Unresolved (history labels) 0 := by
  refine ⟨_, left.opened, ?_⟩
  rintro (⟨_, _, _, _, _, made⟩ | removed)
  · have quiet := all_eq_true.mp left.unclosed _ (mem_history.mp made)
    cases quiet
  · exact left.kept removed

/-- The first use stays pending while the next ones come and go. -/
theorem steps_turn (count : Nat) (below : count < 2 ^ 64) :
    ∃ labels t, Steps (Step (leaseRules 2)) ⟨.new 2, fun _ => .idle⟩ labels t ∧
      Unbegun (count + 1) t ∧ draws (history labels) = count + 1 ∧ LeftOpen labels ∧
      t.world.occupied = 1 ∧ t.world.pending.lookup 0 = some (detached 0) ∧
      ∀ id, id ≠ 0 → t.world.pending.lookup id = none := by
  induction count with
  | zero =>
    have start : Unbegun 0 ⟨.new 2, fun _ => .idle⟩ :=
      ⟨rfl, rfl, rfl, fun _ _ => rfl, fun _ _ => rfl, fun _ _ => rfl⟩
    obtain ⟨labels, t, run, unbegun, drawn, opened, unclosed, removed, pending, occupied⟩ :=
      steps_detach true start (by decide)
    refine ⟨labels, t, run, unbegun, drawn, ⟨opened, unclosed, by simp [removed]⟩, occupied, ?_, ?_⟩
    · rw [pending]
      rfl
    · intro id other
      rw [pending]
      exact AList.lookup_insert_ne other
  | succ count ih =>
    obtain ⟨labels, s, run, unbegun, drawn, left, occupied, first, others⟩ :=
      ih (Nat.lt_of_succ_lt below)
    have fresh : s.world.next ≠ 0 := by
      rw [unbegun.next]
      omega
    obtain ⟨more, t, later, unbegun, drawn', _, unclosed, removed, pending, occupied'⟩ :=
      steps_detach false unbegun (by omega)
    refine ⟨_, t, run.append later, unbegun, ?_, left.append unclosed (by simp [removed]), ?_, ?_,
      ?_⟩
    · rw [history, filterMap_append, draws, countP_append]
      exact congrArg₂ (· + ·) drawn drawn'
    · rw [occupied', occupied, LeaseState.replaced, others _ fresh]
      rfl
    · rw [pending]
      exact (AList.lookup_erase_ne fresh.symm).trans
        ((AList.lookup_insert_ne fresh.symm).trans first)
    · intro id other
      rw [pending]
      by_cases same : id = s.world.next
      · rw [same]
        exact AList.lookup_erase _ _
      · exact (AList.lookup_erase_ne same).trans
          ((AList.lookup_insert_ne same).trans (others id other))

/-- The close of one lease is scheduled, that of another one is abandoned. -/
theorem leases_accounted_detached : ∃ (labels : List LeaseLabel) (t : LeaseSystem),
    Steps (Step (leaseRules 2)) ⟨.new 2, fun _ => .idle⟩ labels t ∧
    draws (history labels) = 2 ∧ Unresolved (history labels) 0 ∧ 1 ≤ t.world.occupied ∧
    t.world.occupied ≤ 2 ∧ (usesAlong removals (history labels)).Nodup := by
  obtain ⟨labels, t, run, _, drawn, left, _⟩ := steps_turn 1 (by decide)
  obtain ⟨-, counted, bounded, once, -⟩ := leases_accounted run (by rw [drawn]; decide)
  exact ⟨labels, t, run, drawn, left.unresolved, counted [0] (nodup_singleton 0)
    (by simp [left.unresolved]), bounded, once⟩

/-- After 2 ^ 64 numbers the first one is drawn again. The entry under it is replaced and
    its slot dropped: a lease is open that no slot counts. -/
theorem repeated_number_drops_slot :
    ∃ (labels : List LeaseLabel) (t : LeaseSystem),
      Steps (Step (leaseRules 2)) ⟨.new 2, fun _ => .idle⟩ labels t ∧
      Unresolved (history labels) 0 ∧ t.world.occupied = 0 := by
  obtain ⟨labels, s, run, unbegun, _, left, occupied, first, others⟩ :=
    steps_turn (2 ^ 64 - 1) (by decide)
  obtain ⟨more, t, later, _, _, _, unclosed, removed, _, occupied'⟩ :=
    steps_detach false unbegun (by omega)
  have again : s.world.next = 0 := unbegun.next
  refine ⟨_, t, run.append later, (left.append unclosed (by simp [removed])).unresolved, ?_⟩
  rw [occupied', occupied, again, LeaseState.replaced, first]
  rfl

end KeyRack.Service.Lease
