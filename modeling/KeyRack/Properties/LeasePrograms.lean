import KeyRack.Properties.LeaseSteps

/-!
# Requests, tasks and drains of the lease cleanup

Every program of the lease cleanup, taken through its branches: what it calls is permitted
by its own history, as long as the replies are as the shared state gives them.
-/
namespace KeyRack.Service.Lease

open Process LeaseCleanup List

/-! ### Closing -/

/-- Only idle events were added. -/
def IdleSince (own later : List LeaseEvent) : Prop :=
  ∃ events, later = own ++ events ∧ ∀ event ∈ events, Idle event

section
variable {own : List LeaseEvent} {lease : WrappedKeyLease}

theorem IdleSince.subset (since : IdleSince own later) : own ⊆ later := by
  obtain ⟨events, rfl, -⟩ := since
  exact subset_append_left own events

theorem IdleSince.unrecorded (since : IdleSince own later)
    (unrecorded : ¬FinallyRecorded own use) : ¬FinallyRecorded later use := by
  obtain ⟨_, rfl, idle⟩ := since
  rintro ⟨event, member, final⟩
  rcases mem_append.mp member with old | new
  · exact unrecorded ⟨event, old, final⟩
  · rw [(idle event new).moves_nothing.2.2.2] at final
    cases final

/-- A result that says the close succeeded comes from a close task for the lease. -/
def Reports (own : List LeaseEvent) (lease : WrappedKeyLease)
    (result : Except KeyRackError WrappedKeyClosure) : Prop :=
  ∀ closure, result = .ok closure →
    ∃ task, ⟨.join task, some (.ok closure)⟩ ∈ own ∧ SpawnedClose own task lease

theorem obeys_attemptClose_then
    (rest : ∀ later result, IdleSince own later → Reports later lease result →
      Obeys Permitted ensures later (f result)) :
    Obeys Permitted ensures own (attemptClose provider lease >>= f) := by
  apply obeys_bind.mpr
  apply obeys_spawn_then (by trivial)
  · apply rest _ _ ⟨[⟨.loadStopped, true⟩], rfl, by simp [Idle]⟩
    rintro _ ⟨⟩
  · apply rest _ _ ⟨[⟨.loadStopped, false⟩, ⟨.tryCurrent, false⟩], by simp, by simp [Idle]⟩
    rintro _ ⟨⟩
  · intro task
    refine ⟨fun _ => trivial, fun answer => ?_⟩
    apply rest _ _ ⟨[⟨.loadStopped, false⟩, ⟨.tryCurrent, true⟩,
      ⟨.spawnOn (.closing provider lease), task⟩, ⟨.join task, answer⟩], by simp, by simp [Idle]⟩
    intro closure succeeded
    cases answer with
    | none => cases succeeded
    | some result =>
      cases (succeeded : result = .ok closure)
      exact ⟨task, by simp, provider, by simp⟩

variable {id : Nat}

/-- What a finished close needs to have seen. -/
theorem settle_obeys (unrecorded : ∀ use, ¬FinallyRecorded own use)
    (closed : ∀ closure, result = .ok closure → ∃ provider lease inFlight task,
      ⟨.fetchWork, .cleanup id provider lease inFlight⟩ ∈ own ∧
      ⟨.join task, some (.ok closure)⟩ ∈ own ∧
      (inFlight = some task ∨ SpawnedClose own task lease)) : Keeps own (settle id result) := by
  refine obeys_takePending_then (fun _ _ _ => trivial) (by trivial) fun subject => ?_
  have removed : Removed (own ++
      [⟨.removePending id, some (subject, some ⟨subject.use⟩)⟩] ++ [⟨.dropSlot ⟨subject.use⟩, ()⟩])
      subject.use := noted_concat.mpr (.inl (noted_concat.mpr (.inr (by simp [removals]))))
  have once : ¬FinallyRecorded (own ++
      [⟨.removePending id, some (subject, some ⟨subject.use⟩)⟩] ++ [⟨.dropSlot ⟨subject.use⟩, ()⟩])
      subject.use := unnoted_concat (unnoted_concat (unrecorded _) rfl) rfl
  cases result with
  | error => exact obeys_make ⟨removed, once, by rintro ⟨⟩⟩
  | ok closure =>
    obtain ⟨provider, lease, inFlight, task, fetched, answered, spawned⟩ := closed closure rfl
    refine obeys_make ⟨removed, once, fun _ => ?_⟩
    refine ⟨id, provider, lease, inFlight, some ⟨subject.use⟩, task, closure, by simp [fetched],
      by simp, by simp [answered], spawned.imp_right ?_⟩
    rintro ⟨closer, member⟩
    exact ⟨closer, by simp [member]⟩

theorem IdleSince.trans (first : IdleSince own later)
    (second : IdleSince later last) : IdleSince own last := by
  obtain ⟨events, rfl, idle⟩ := first
  obtain ⟨more, rfl, idle'⟩ := second
  refine ⟨events ++ more, by simp, ?_⟩
  intro event member
  rcases mem_append.mp member with old | new
  · exact idle event old
  · exact idle' event new

/-- The close of a cleanup task, after its first attempt. -/
theorem finishCleanup_obeys {first : Except KeyRackError WrappedKeyClosure}
    (since : IdleSince [⟨.fetchWork, .cleanup id provider lease inFlight⟩] later)
    (reports : ∀ closure, first = .ok closure → ∃ task,
      ⟨.join task, some (.ok closure)⟩ ∈ later ∧
      (inFlight = some task ∨ SpawnedClose later task lease)) :
    Keeps later (match first with
      | .ok closure => settle id (.ok closure)
      | .error _ => do
        let result ← attemptClose provider lease
        settle id result) := by
  have unrecorded {last : List LeaseEvent}
      (since : IdleSince [⟨.fetchWork, .cleanup id provider lease inFlight⟩] last) (use : Nat) :
      ¬FinallyRecorded last use := by
    apply since.unrecorded
    simp [Noted, finals]
  cases first with
  | ok closure =>
    apply settle_obeys (unrecorded since)
    rintro _ ⟨⟩
    obtain ⟨task, answered, spawned⟩ := reports closure rfl
    exact ⟨provider, lease, inFlight, task, since.subset (by simp), answered, spawned⟩
  | error =>
    apply obeys_attemptClose_then
    intro _ _ idle reports
    apply settle_obeys (unrecorded (since.trans idle))
    intro closure succeeded
    obtain ⟨task, answered, spawned⟩ := reports closure succeeded
    exact ⟨provider, lease, inFlight, task, (since.trans idle).subset (by simp), answered,
      .inr spawned⟩

theorem cleanup_obeys :
    Keeps [⟨.fetchWork, .cleanup id provider lease inFlight⟩]
      (cleanup id provider lease inFlight) := by
  cases inFlight with
  | some task =>
    refine ⟨fun _ => trivial, fun answer => ?_⟩
    apply finishCleanup_obeys ⟨[⟨.join task, answer⟩], rfl, by simp [Idle]⟩
    intro closure succeeded
    cases answer with
    | none => cases succeeded
    | some result =>
      cases (succeeded : result = .ok closure)
      exact ⟨task, by simp, .inl rfl⟩
  | none =>
    apply obeys_attemptClose_then
    intro _ _ since reports
    apply finishCleanup_obeys since
    intro closure succeeded
    obtain ⟨task, answered, spawned⟩ := reports closure succeeded
    exact ⟨task, answered, .inr spawned⟩

theorem closing_obeys :
    Keeps [⟨.fetchWork, .closing provider lease⟩]
      (closing provider lease) :=
  ⟨fun _ => trivial, fun _ => obeys_make ⟨provider, lease, rfl⟩⟩

end

/-! ### Opening -/

theorem opening_obeys :
    Keeps [⟨.fetchWork, .opening slot request⟩]
      (opening slot request) := by
  refine ⟨fun _ => ⟨slot, rfl⟩, fun opened => ?_⟩
  have hand : Hand ([⟨.fetchWork, .opening slot request⟩] ++ [⟨.openWrappedKey request, opened⟩])
      slot.use := by
    simp [Hand, grabs, releases]
  have failed (none : ∀ lease, opened ≠ some (.ok lease)) :
      Permitted ([⟨.fetchWork, .opening slot request⟩] ++ [⟨.openWrappedKey request, opened⟩])
        (.dropSlot slot) := fun _ => ⟨hand, .inr (.inr (.inl ⟨request, opened, rfl, none⟩))⟩
  cases opened with
  | none => exact ⟨failed (by rintro _ ⟨⟩), fun _ => obeys_make trivial⟩
  | some result =>
    cases result with
    | error => exact ⟨failed (by rintro _ ⟨⟩), fun _ => ⟨fun _ => trivial, fun _ => trivial⟩⟩
    | ok lease =>
      have ready : Ready
          ([⟨.fetchWork, .opening slot request⟩] ++ [⟨.openWrappedKey request, some (.ok lease)⟩])
          slot.use lease :=
        ⟨hand, by simp [Noted, removals], by simp [Noted, finals],
          .inl ⟨request, by simp, by simp⟩⟩
      refine ⟨fun _ => ⟨hand, rfl, ⟨rfl, rfl, rfl⟩, ready.kept, lease, rfl, ready.hasLease⟩,
        fun received => ?_⟩
      cases received with
      | true => trivial
      | false =>
        exact @drop_obeys _ lease (guardOf slot request lease) rfl rfl (ready.idle trivial)
          (by rintro _ ⟨⟩)

/-- The request has a guard and what it needs to close or drop it. -/
structure Equipped (own : List LeaseEvent) (guard : LeaseGuard) : Prop where
  fresh : Fresh guard
  received : Received own guard
  ready : ∀ lease, guard.lease = some lease → Ready own guard.subject.use lease

variable {guard : LeaseGuard} {own : List LeaseEvent}

theorem Equipped.idle (equipped : Equipped own guard) (idle : Idle event) :
    Equipped (own ++ [event]) guard where
  fresh := equipped.fresh
  received := equipped.received.concat
  ready lease holds := (equipped.ready lease holds).idle idle

theorem Equipped.drop_obeys (equipped : Equipped own guard) : Keeps own guard.drop := by
  obtain ⟨lease, holds⟩ := Option.isSome_iff_exists.mp equipped.fresh.lease
  apply KeyRack.Service.Lease.drop_obeys equipped.fresh.slot holds
    (equipped.ready lease holds)
  rw [equipped.fresh.inFlight]
  rintro _ ⟨⟩

theorem close_obeys (equipped : Equipped own guard) : Keeps own guard.close := by
  obtain ⟨lease, holds⟩ := Option.isSome_iff_exists.mp equipped.fresh.lease
  have given {later : List LeaseEvent} {result : Option (Except KeyRackError Unit)}
      (equipped : Equipped later guard) :
      Keeps later (guard.drop >>= fun _ => pure result) :=
    obeys_then_of_true equipped.drop_obeys fun _ _ => trivial
  have running (stopped : Bool) : Equipped (own ++ [⟨.loadStopped, stopped⟩]) guard :=
    equipped.idle trivial
  unfold LeaseGuard.close
  rw [holds]
  apply obeys_spawn_then (by trivial)
  · exact given (running true)
  · exact given ((running false).idle (by trivial))
  · intro task
    have spawned : Equipped (own ++ [⟨.loadStopped, false⟩] ++ [⟨.tryCurrent, true⟩] ++
        [⟨.spawnOn (.closing guard.provider lease), task⟩]) guard :=
      ((running false).idle (by trivial)).idle (by trivial)
    apply obeys_make_then (by trivial)
    intro answer
    have answered := @Equipped.idle _ _ ⟨.awaitClose task, answer⟩ spawned trivial
    cases answer with
    | none =>
      -- dropped while it waits: the close that is running goes along
      refine obeys_then_of_true (@KeyRack.Service.Lease.drop_obeys _ lease
        { guard with lease := some lease, inFlight := some task } equipped.fresh.slot rfl
        (answered.ready lease holds) ?_) fun _ _ => trivial
      rintro _ ⟨⟩
      exact ⟨guard.provider, by simp⟩
    | some closed =>
      cases closed with
      | none => exact given answered
      | some result =>
        cases result with
        | error => exact given answered
        | ok closure =>
          refine obeys_then_of_true ?_ fun _ _ => trivial
          rw [LeaseGuard.drop, equipped.fresh.slot]
          refine obeys_make ⟨(answered.ready lease holds).hand,
            .inr (.inr (.inr (.inl ⟨lease, ?_⟩)))⟩
          exact ⟨⟨guard, answered.received, rfl, holds⟩, task, closure,
            ⟨guard.provider, by simp⟩, by simp⟩

/-! ### Requests -/

/-- A guard that comes to a request is one it can close or drop. -/
theorem equipped_of_received (fresh : Fresh guard)
    (came : answered = .received (.ok guard) ∨ answered = .dropped (some (.ok guard)))
    (kept : ¬Removed own guard.subject.use) (unrecorded : ¬FinallyRecorded own guard.subject.use) :
    Equipped (own ++ [⟨.awaitOpen channel, answered⟩]) guard := by
  have received : Received (own ++ [⟨.awaitOpen channel, answered⟩]) guard := by
    refine ⟨channel, ?_⟩
    rcases came with rfl | rfl
    · simp
    · simp
  refine ⟨fresh, received, ?_⟩
  intro _ holds
  refine ⟨?_, ?_, unnoted_concat unrecorded rfl, .inr ⟨guard, received, rfl, holds⟩⟩
  · apply hand_concat.mpr
    rcases came with rfl | rfl
    · simp [grabs, usesIn, fresh.slot, usesOf]
    · simp [grabs, usesIn, fresh.slot, usesOf]
  · simpa [noted_concat, removals] using kept

/-- A guard that comes of an open can be closed or dropped. -/
def Equips (own : List LeaseEvent) (result : Option Opened) : Prop :=
  ∀ guard, result = some (.ok guard) → Honest own → Equipped own guard

theorem equips_error : Equips own (some (.error error)) := by
  rintro _ ⟨⟩

theorem equips_none : Equips own none := by
  rintro _ ⟨⟩

theorem equips_of_dishonest (own : List LeaseEvent) (result : Option Opened)
    (dishonest : ¬Honest own) : Equips own result :=
  fun _ _ honest => absurd honest dishonest

theorem open_obeys : Obeys Permitted Equips [] (LeaseCleanup.open limit request) := by
  refine obeys_make_then rfl fun reserved => ?_
  cases reserved with
  | none => exact equips_error
  | some slot =>
    refine obeys_spawn_then rfl ?_ ?_ ?_
    · refine ⟨fun _ => ⟨?_, .inl ⟨true, rfl⟩⟩, fun _ => equips_error⟩
      simp [Hand, grabs, releases]
    · refine ⟨fun _ => ⟨?_, .inr (.inl rfl)⟩, fun _ => equips_error⟩
      simp [Hand, grabs, releases]
    · intro task
      refine obeys_make_then (by trivial) fun answered => ?_
      have equipped (guard : LeaseGuard) (fresh : Fresh guard)
          (came : answered = .received (.ok guard) ∨ answered = .dropped (some (.ok guard))) :
          Equipped ([⟨.reserve, some slot⟩] ++ [⟨.loadStopped, false⟩] ++ [⟨.tryCurrent, true⟩] ++
            [⟨.spawnOn (.opening slot request), task⟩] ++ [⟨.awaitOpen slot.use, answered⟩])
            guard :=
        equipped_of_received fresh came (by simp [Noted, removals])
          (by simp [Noted, finals])
      cases answered with
      | received =>
        rintro guard ⟨⟩ honest
        exact equipped guard (honest.guards guard ⟨slot.use, by simp⟩) (.inl rfl)
      | senderGone => exact equips_error
      | dropped unreceived =>
        cases unreceived with
        | none => exact equips_none
        | some opened =>
          cases opened with
          | error => exact equips_none
          | ok guard =>
            refine obeys_of_honest equips_of_dishonest fun honest => ?_
            have fresh := honest.guards guard ⟨slot.use, by simp⟩
            exact obeys_then_of_true (equipped guard fresh (.inr rfl)).drop_obeys
              fun _ _ => equips_none

theorem operations_obeys (count : Nat) (equipped : Equipped own guard) :
    Obeys Permitted (fun own _ => Equipped own guard) own (operations handle count) := by
  induction count generalizing own with
  | zero => exact equipped
  | succ _ ih =>
    refine obeys_make_then (by trivial) fun alive => ?_
    have operated : Equipped (own ++ [⟨.operate handle, alive⟩]) guard := equipped.idle trivial
    cases alive with
    | true => exact ih operated
    | false => exact operated

theorem finishes_of_dishonest (own : List LeaseEvent) (result : Option Nat)
    (dishonest : ¬Honest own) : Finishes own result :=
  fun honest => absurd honest dishonest

theorem useLease_obeys {count : Nat} :
    Obeys Permitted Finishes [] (useLease limit request count closes) := by
  apply obeys_bind.mpr
  apply open_obeys.mono
  intro own opened given
  cases opened with
  | none => exact nofun
  | some result =>
    cases result with
    | error => exact nofun
    | ok guard =>
      refine obeys_of_honest finishes_of_dishonest fun honest => ?_
      apply obeys_bind.mpr
      apply (operations_obeys count (given guard rfl honest)).mono
      intro _ _ equipped
      split
      · exact obeys_then_of_true (close_obeys equipped) fun _ _ => nofun
      · exact obeys_then_of_true equipped.drop_obeys fun _ _ => nofun

/-! ### Tasks and drains -/

theorem runTask_obeys : Obeys Permitted Finishes [] runTask := by
  refine obeys_make_then rfl fun work => ?_
  cases work with
  | opening => exact obeys_then_of_true opening_obeys fun _ _ => nofun
  | closing => exact obeys_then_of_true closing_obeys fun _ _ => nofun
  | cleanup => exact obeys_then_of_true cleanup_obeys fun _ _ => nofun

/-- What a drain has to know of the entries that it still has to give up. -/
structure Abandoning (own : List LeaseEvent) (rest : List (Nat × PendingEntry)) : Prop where
  removed : ∀ entry ∈ rest, Removed own entry.2.1.use
  slots : ∀ entry ∈ rest, entry.2.2 = some ⟨entry.2.1.use⟩
  uses : (rest.map fun entry => entry.2.1.use).Nodup
  held : ∀ entry ∈ rest, Hand own entry.2.1.use
  unrecorded : ∀ entry ∈ rest, ¬FinallyRecorded own entry.2.1.use

/-- One entry after the other; each use has one entry. -/
theorem Abandoning.tail (abandoning : Abandoning own (entry :: rest)) :
    Abandoning (own ++ [⟨.dropSlot ⟨entry.2.1.use⟩, ()⟩] ++
      [⟨.record .abandoned entry.2.1 none, ()⟩]) rest := by
  obtain ⟨removed, slots, uses, held, unrecorded⟩ := abandoning
  rw [map_cons, nodup_cons] at uses
  have other (next : Nat × PendingEntry) (member : next ∈ rest) : next.2.1.use ≠ entry.2.1.use := by
    intro same
    exact uses.1 (mem_map.mpr ⟨next, member, same⟩)
  refine ⟨?_, ?_, uses.2, ?_, ?_⟩
  · intro next member
    have before := removed next (mem_cons_of_mem _ member)
    exact noted_concat.mpr (.inl (noted_concat.mpr (.inl before)))
  · intro next member
    exact slots next (mem_cons_of_mem _ member)
  · intro next member
    have before := held next (mem_cons_of_mem _ member)
    have dropped : Hand (own ++ [⟨.dropSlot ⟨entry.2.1.use⟩, ()⟩]) next.2.1.use :=
      hand_concat.mpr (.inl ⟨before, by simp [releases, other next member]⟩)
    exact hand_concat.mpr (.inl ⟨dropped, by simp [releases]⟩)
  · intro next member
    have before := unrecorded next (mem_cons_of_mem _ member)
    simp only [noted_concat, finals, mem_singleton, not_mem_nil, or_false]
    rintro (old | same)
    · exact before old
    · exact other next member same

theorem abandon_obeys (rest : List (Nat × PendingEntry))
    (taken : ⟨.takePending, entries⟩ ∈ own) (abandoning : Abandoning own rest) :
    Obeys Permitted (fun own _ => ⟨.takePending, entries⟩ ∈ own) own
      (rest.forM fun entry => do
        dropSlot? entry.2.2
        record .abandoned entry.2.1 none) := by
  induction rest generalizing own with
  | nil => exact taken
  | cons entry rest ih =>
    have first : entry ∈ entry :: rest := mem_cons_self
    have removed := abandoning.removed entry first
    unfold List.forM
    rw [abandoning.slots entry first]
    apply obeys_bind.mpr
    refine ⟨fun _ => ⟨abandoning.held entry first, ?_⟩, fun _ => ?_⟩
    · exact .inr (.inr (.inr (.inr removed)))
    refine ⟨fun _ => ⟨noted_concat.mpr (.inl removed), ?_, nofun⟩, fun _ => ?_⟩
    · exact unnoted_concat (abandoning.unrecorded entry first) rfl
    · exact ih (by simp [taken]) abandoning.tail

theorem runDrain_obeys : Obeys Permitted Finishes [] runDrain := by
  apply obeys_bind.mpr
  refine obeys_make_then (by trivial) fun _ => obeys_make_then (by trivial) fun _ => ?_
  refine obeys_make_then (by simp [Requires]) fun entries => ?_
  refine obeys_of_honest (fun own count dishonest => finishes_of_dishonest own _ dishonest)
    fun honest => ?_
  obtain ⟨slots, uses⟩ := honest.taken entries mem_concat_self
  apply obeys_bind.mpr
  have abandoning : Abandoning ([] ++ [⟨.awaitTracker, ()⟩] ++ [⟨.storeStopped, ()⟩] ++
      [⟨.takePending, entries⟩]) entries := by
    refine ⟨?_, slots, uses, ?_, ?_⟩
    · intro entry member
      exact noted_concat.mpr (.inr (mem_map.mpr ⟨entry, member, rfl⟩))
    · intro entry member
      apply hand_concat.mpr
      right
      exact mem_flatMap.mpr ⟨entry, member, by simp [usesOf, slots entry member]⟩
    · intro _ _
      simp [Noted, finals]
  apply (@abandon_obeys _ entries entries (by simp) abandoning).mono
  intro _ _ taken _ _
  exact ⟨entries, taken⟩

/-- What every participant may do. -/
theorem participants_obey {p : LeaseM (Option Nat)} (startable : (leaseRules limit).starts p) :
    Obeys Permitted Finishes [] p := by
  obtain ⟨_, _, _, rfl⟩ | rfl | rfl := startable
  · exact useLease_obeys
  · exact runTask_obeys
  · exact runDrain_obeys

end KeyRack.Service.Lease
