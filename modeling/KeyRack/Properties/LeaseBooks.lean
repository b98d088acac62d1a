import KeyRack.Lib.History
import KeyRack.Lib.Ownership
import KeyRack.Properties.LeasePrograms

/-!
# What the lease cleanup keeps track of

The shared state shows what was called: numbers of pending closes are given out once, tasks
run what was spawned, a guard has the lease that was opened for its use, and what comes out
of the pending map was put in. So each call tells something about the calls before it.
-/
namespace KeyRack.Service.Lease

open Process Trace Assoc Ownership LeaseCleanup List

abbrev Past : Type := List (Participant × LeaseEvent)

variable {w w' : LeaseState} {i : Participant} {c : LeaseCall} {r : c.Reply} {past : Past}

/-! ### What an answer changes -/

variable {id : Nat} {entry : PendingEntry}

section
variable (answered : LeaseAnswers w i c r w')
include answered

theorem pending_of_answered (found : w'.pending.lookup id = some entry) :
    c = .insertPending id entry ∨
      (w.pending.lookup id = some entry ∧ c ≠ .removePending id ∧ c ≠ .takePending) := by
  cases answered <;> first | exact .inr ⟨found, nofun, nofun⟩ | skip
  case insertPending =>
    rcases FiniteMap.lookup_insert_cases found with ⟨rfl, rfl⟩ | ⟨_, kept⟩
    · exact .inl rfl
    · exact .inr ⟨kept, nofun, nofun⟩
  case removePending =>
    rw [FiniteMap.lookup_erase_apply] at found
    split at found
    · cases found
    · next different =>
      refine .inr ⟨found, ?_, nofun⟩
      rintro ⟨⟩
      exact different rfl
  case takePending => cases found

variable {k : TaskId} {work : Work}

theorem tasks_answered : w'.tasks[k]? = some work ↔
    w.tasks[k]? = some work ∨ (⟨c, r⟩ : LeaseEvent) = ⟨.spawnOn work, k⟩ := by
  cases answered <;> first | exact (or_iff_left nofun).symm | skip
  case spawnOn new =>
    by_cases last : k = w.tasks.length
    · subst last
      simp [eq_comm]
    · have other : (⟨.spawnOn new, w.tasks.length⟩ : LeaseEvent) ≠ ⟨.spawnOn work, k⟩ := by
        rintro ⟨⟩
        exact last rfl
      simp only [List.getElem?_append, other, or_false]
      grind

end

theorem of_update {κ ν : Type} [DecidableEq κ] {f : κ → ν} {key other : κ} {new v : ν}
    (found : Function.update f key new other = v) :
    (other = key ∧ new = v) ∨ (other ≠ key ∧ f other = v) := by
  by_cases same : other = key
  · subst same
    rw [Function.update_self] at found
    exact .inl ⟨rfl, found⟩
  · rw [Function.update_of_ne same] at found
    exact .inr ⟨same, found⟩

section
variable (answered : LeaseAnswers w i c r w')
include answered

theorem channel_of_answered (holds : w'.channels m = .holds opened) :
    (⟨c, r⟩ : LeaseEvent) = ⟨.send m opened, true⟩ ∨
      (w.channels m = .holds opened ∧ c ≠ .awaitOpen m) := by
  cases answered <;> first | exact .inr ⟨holds, nofun⟩ | skip
  case sent =>
    rcases of_update holds with ⟨rfl, same⟩ | ⟨-, before⟩
    · cases same
      exact .inl rfl
    · exact .inr ⟨before, nofun⟩
  case hangUp =>
    rcases of_update holds with ⟨-, same⟩ | ⟨-, before⟩
    · cases same
    · exact .inr ⟨before, nofun⟩
  all_goals
    -- the receiver is gone
    rcases of_update holds with ⟨-, same⟩ | ⟨other, before⟩
    · cases same
    · refine .inr ⟨before, ?_⟩
      rintro ⟨⟩
      exact other rfl

variable {answer : CloseAnswer}

theorem answers_of_answered (found : w'.answers k = some answer) :
    w.answers k = some answer ∨ (i = .task k ∧ c = .complete answer) := by
  cases answered <;> first | exact .inl found | skip
  case complete =>
    rcases of_update found with ⟨rfl, same⟩ | ⟨-, before⟩
    · cases same
      exact .inr ⟨rfl, rfl⟩
    · exact .inl before

theorem stopped_kept (stopped : w.stopped = true) : w'.stopped = true := by
  cases answered <;> first | exact stopped | rfl

end

/-! ### Numbers -/

/-- An entry was put into the pending map under this number. -/
abbrev Inserted (past : Past) (id : Nat) (entry : PendingEntry) : Prop :=
  Happened past ⟨.insertPending id entry, ()⟩

variable {event : LeaseEvent}

/-- Who has a number: who was given it last, or an entry that was put in under it. -/
def hasNumber (past : Past) : Participant ⊕ Participant × PendingEntry → Nat → Prop
  | .inl i, id => (eventsOf i past).getLast? = some ⟨.nextId, id⟩
  | .inr (i, entry), id => (i, ⟨.insertPending id entry, ()⟩) ∈ past

/-- Who has a number by this event. -/
inductive GetsNumber (i : Participant) :
    LeaseEvent → Participant ⊕ Participant × PendingEntry → Nat → Prop where
  | given (id : Nat) : GetsNumber i ⟨.nextId, id⟩ (.inl i) id
  | used (id : Nat) (entry : PendingEntry) :
      GetsNumber i ⟨.insertPending id entry, ()⟩ (.inr (i, entry)) id

theorem hasNumber_concat (has : hasNumber (past ++ [(i, event)]) o id) :
    (hasNumber past o id ∧ o ≠ .inl i) ∨ GetsNumber i event o id := by
  cases o with
  | inl j =>
    change (eventsOf j (past ++ [(i, event)])).getLast? = _ at has
    by_cases same : j = i
    · subst same
      rw [eventsOf_concat_self, List.getLast?_concat] at has
      cases has
      exact .inr (.given id)
    · rw [eventsOf_concat_ne (Ne.symm same)] at has
      exact .inl ⟨has, fun this => same (Sum.inl.inj this)⟩
  | inr holder =>
    rcases mem_concat.mp has with old | new
    · exact .inl ⟨old, nofun⟩
    · cases new
      exact .inr (.used id holder.2)

/-- How many numbers were drawn. -/
def draws (past : Past) : Nat := past.countP fun made => made.2.1 matches .nextId

/-- A number is given out once and used at most once. -/
structure Numbered (past : Past) (w : LeaseState) : Prop where
  sole : Sole (hasNumber past)
  drawn : w.next = draws past
  below : ∀ o id, hasNumber past o id → id < draws past

theorem draws_concat : draws (past ++ [(i, event)]) = draws past + draws [(i, event)] :=
  countP_append

/-- The counter goes on as long as it does not start again. -/
theorem next_answered (answered : LeaseAnswers w i c r w') (drawn : w.next = draws past)
    (few : draws (past ++ [(i, ⟨c, r⟩)]) < 2 ^ 64) : w'.next = draws (past ++ [(i, ⟨c, r⟩)]) := by
  rw [draws_concat] at few ⊢
  cases answered <;> first | exact drawn | skip
  case nextId =>
    change wrappingSucc w.next = draws past + 1
    rw [← drawn]
    exact wrappingSucc_eq_iff.mpr (by rw [drawn]; exact Nat.lt_sub_of_add_lt few)

theorem Numbered.step (numbered : Numbered past w) (answered : LeaseAnswers w i c r w')
    (requires : Requires (eventsOf i past) c) (few : draws (past ++ [(i, ⟨c, r⟩)]) < 2 ^ 64) :
    Numbered (past ++ [(i, ⟨c, r⟩)]) w' where
  sole := by
    apply numbered.sole.move (GetsNumber i ⟨c, r⟩)
    · intro _ _ _ first second
      cases first <;> cases second <;> rfl
    · intro _ id gets
      cases gets with
      | given =>
        left
        intro o has
        cases answered
        exact (numbered.below o _ has).ne numbered.drawn
      | used =>
        refine .inr ⟨.inl i, requires.2.2.2.1, fun still => ?_⟩
        rcases hasNumber_concat still with ⟨-, other⟩ | gets
        · exact other rfl
        · cases gets
    · intro o id has
      exact (hasNumber_concat has).imp_left And.left
  drawn := next_answered answered numbered.drawn few
  below o id has := by
    rw [draws_concat]
    rcases hasNumber_concat has with ⟨before, -⟩ | gets
    · exact Nat.lt_add_right _ (numbered.below o id before)
    · cases gets with
      | given =>
        cases answered
        exact numbered.drawn ▸ Nat.lt_succ_self _
      | used => exact Nat.lt_add_right _ (numbered.below (.inl i) id requires.2.2.2.1)

theorem Numbered.once (numbered : Numbered past w)
    (first : Inserted past id entry) (second : Inserted past id entry') : entry = entry' := by
  obtain ⟨i, first⟩ := first
  obtain ⟨j, second⟩ := second
  cases numbered.sole (.inr (i, entry)) (.inr (j, entry')) id first second
  rfl

/-! ### What the state shows -/

/-- A task was spawned with this work. -/
abbrev Spawned (past : Past) (k : TaskId) (work : Work) : Prop := Happened past ⟨.spawnOn work, k⟩

structure Shows (past : Past) (w : LeaseState) : Prop where
  stopped : Happened past ⟨.storeStopped, ()⟩ → w.stopped = true
  tasks : ∀ k work, w.tasks[k]? = some work ↔ Spawned past k work
  answers : ∀ k answer, w.answers k = some answer → (.task k, ⟨.complete answer, ()⟩) ∈ past
  channels : ∀ use opened, w.channels use = .holds opened → Happened past ⟨.send use opened, true⟩
  pending : ∀ id entry, w.pending.lookup id = some entry → Inserted past id entry

theorem Shows.step (shows : Shows past w) (answered : LeaseAnswers w i c r w') :
    Shows (past ++ [(i, ⟨c, r⟩)]) w' where
  stopped happened := by
    rcases happened_concat.mp happened with old | new
    · exact stopped_kept answered (shows.stopped old)
    · cases new
      cases answered
      rfl
  tasks k work := by
    rw [tasks_answered answered, shows.tasks]
    exact happened_concat.symm
  answers k answer found := by
    rcases answers_of_answered answered found with old | ⟨rfl, rfl⟩
    · exact mem_append_left _ (shows.answers k answer old)
    · exact mem_concat_self
  channels use opened holds := by
    rcases channel_of_answered answered holds with sent | ⟨before, -⟩
    · exact happened_concat.mpr (.inr sent)
    · exact (shows.channels use opened before).concat
  pending id entry found := by
    rcases pending_of_answered answered found with rfl | ⟨before, -⟩
    · exact happened_concat.mpr (.inr rfl)
    · exact (shows.pending id entry before).concat

theorem Shows.same_work (shows : Shows past w)
    (first : Spawned past k work) (second : Spawned past k work') : work = work' := by
  have both := ((shows.tasks k work).mpr first).symm.trans ((shows.tasks k work').mpr second)
  exact Option.some.inj both

/-! ### What the calls tell -/

section
variable (past : Past)

/-- A close task for a lease ended with this answer. -/
def Closes (k : TaskId) (answer : CloseAnswer) : Prop :=
  ∃ provider lease, Spawned past k (.closing provider lease) ∧
    (.task k, ⟨.closeWrappedKey provider lease, answer⟩) ∈ past

/-- How a request begins whose open was spawned. -/
def opensWith (slot : Slot) (request : OpenRequest) (k : TaskId) : List LeaseEvent :=
  [⟨.reserve, some slot⟩, ⟨.loadStopped, false⟩, ⟨.tryCurrent, true⟩,
    ⟨.spawnOn (.opening slot request), k⟩]

/-- The provider's open returned this lease for the use. -/
def OpenedUse (use : Nat) (lease : WrappedKeyLease) : Prop :=
  ∃ i request, (i, ⟨.fetchWork, .opening ⟨use⟩ request⟩) ∈ past ∧
    (i, ⟨.openWrappedKey request, some (.ok lease)⟩) ∈ past

/-- A guard under the number of its use, with the lease that was opened for it. -/
structure Sound (use : Nat) (guard : LeaseGuard) : Prop where
  fresh : Fresh guard
  named : guard.subject.use = use
  opened : ∀ lease, guard.lease = some lease → OpenedUse past use lease

/-- The provider answered a close of the lease with success. -/
def CloseSucceeded (lease : WrappedKeyLease) : Prop :=
  ∃ i provider closure, (i, ⟨.closeWrappedKey provider lease, some (.ok closure)⟩) ∈ past

/-- The lease that was opened for the subject's use was closed. -/
def ClosedFor (subject : LeaseSubject) : Prop :=
  ∃ lease, OpenedUse past subject.use lease ∧ CloseSucceeded past lease

/-- What one can tell from a call and its reply. -/
def Tells (i : Participant) : LeaseEvent → Prop
  | ⟨.reserve, some slot⟩ => i = .request slot.use
  | ⟨.spawnOn (.opening slot request), k⟩ =>
    opensWith slot request k <+: eventsOf (.request slot.use) past
  | ⟨.spawnOn (.cleanup id _ lease inFlight), _⟩ =>
    ∃ subject slot, Inserted past id (subject, slot) ∧ OpenedUse past subject.use lease ∧
      ∀ task, inFlight = some task → ∃ closer, Spawned past task (.closing closer lease)
  | ⟨.fetchWork, work⟩ => ∃ k, i = .task k ∧ Spawned past k work
  | ⟨.openWrappedKey request, reply⟩ => ∃ slot,
    [⟨.fetchWork, .opening slot request⟩, ⟨.openWrappedKey request, reply⟩] <+: eventsOf i past
  | ⟨.complete answer, _⟩ => ∀ k, i = .task k → Closes past k answer
  | ⟨.send use (.ok guard), _⟩ => Sound past use guard
  | ⟨.awaitOpen use, .received (.ok guard)⟩ => Sound past use guard
  | ⟨.awaitOpen use, .dropped (some (.ok guard))⟩ => Sound past use guard
  | ⟨.awaitClose k, some answer⟩ => Closes past k answer
  | ⟨.join k, answer⟩ => Closes past k answer
  | ⟨.insertPending _ entry, _⟩ => entry.2 = some ⟨entry.1.use⟩
  | ⟨.removePending id, some entry⟩ => Inserted past id entry
  | ⟨.takePending, entries⟩ => Happened past ⟨.storeStopped, ()⟩ ∧
    (entries.map fun entry => entry.2.1.use).Nodup ∧
      ∀ entry ∈ entries, Inserted past entry.1 entry.2
  | ⟨.record .closedAfterReturn subject _, _⟩ => ClosedFor past subject
  | _ => True

end

theorem Closes.concat (closes : Closes past k answer) : Closes (past ++ [made]) k answer := by
  obtain ⟨provider, lease, spawned, closed⟩ := closes
  exact ⟨provider, lease, spawned.concat, mem_append_left _ closed⟩

theorem OpenedUse.concat (opened : OpenedUse past use lease) :
    OpenedUse (past ++ [made]) use lease := by
  obtain ⟨j, request, fetched, returned⟩ := opened
  exact ⟨j, request, mem_append_left _ fetched, mem_append_left _ returned⟩

theorem Sound.concat {guard : LeaseGuard} (sound : Sound past use guard) :
    Sound (past ++ [made]) use guard :=
  ⟨sound.fresh, sound.named, fun lease holds => (sound.opened lease holds).concat⟩

theorem CloseSucceeded.concat (closed : CloseSucceeded past lease) :
    CloseSucceeded (past ++ [made]) lease := by
  obtain ⟨j, provider, closure, made⟩ := closed
  exact ⟨j, provider, closure, mem_append_left _ made⟩

theorem Tells.concat (tells : Tells past i event) : Tells (past ++ [made]) i event := by
  unfold Tells
  split
  · exact tells
  · exact tells.trans (eventsOf_grows _ _ _)
  · obtain ⟨subject, slot, inserted, opened, closers⟩ := tells
    refine ⟨subject, slot, inserted.concat, opened.concat, fun task same => ?_⟩
    obtain ⟨closer, spawned⟩ := closers task same
    exact ⟨closer, spawned.concat⟩
  · obtain ⟨k, same, spawned⟩ := tells
    exact ⟨k, same, spawned.concat⟩
  · obtain ⟨slot, begins⟩ := tells
    exact ⟨slot, begins.trans (eventsOf_grows _ _ _)⟩
  · exact fun k same => (tells k same).concat
  · exact Sound.concat tells
  · exact Sound.concat tells
  · exact Sound.concat tells
  · exact Closes.concat tells
  · exact Closes.concat tells
  · exact tells
  · exact Happened.concat tells
  · obtain ⟨stopped, distinct, inserted⟩ := tells
    exact ⟨stopped.concat, distinct, fun entry member => (inserted entry member).concat⟩
  · obtain ⟨lease, opened, succeeded⟩ := tells
    exact ⟨lease, opened.concat, succeeded.concat⟩
  · trivial

/-- All that an answer finds. -/
structure Books (past : Past) (w : LeaseState) : Prop where
  numbered : Numbered past w
  shows : Shows past w
  tells : ∀ i event, (i, event) ∈ past → Tells past i event

section
variable (books : Books past w)
include books

/-- A use is opened by one task only. -/
theorem Books.same_opening (first : Spawned past k (.opening slot request))
    (second : Spawned past k' (.opening slot request')) : k = k' := by
  obtain ⟨_, first⟩ := first
  obtain ⟨_, second⟩ := second
  have begins : opensWith slot request k <+: _ := books.tells _ _ first
  have begins' : opensWith slot request' k' <+: _ := books.tells _ _ second
  have same := (prefix_of_prefix_length_le begins begins' (by simp [opensWith])).eq_of_length
    (by simp [opensWith])
  simp only [opensWith, List.cons.injEq, Sigma.mk.injEq] at same
  exact eq_of_heq same.2.2.2.1.2

theorem Books.channel {guard : LeaseGuard} (holds : w.channels use = .holds (.ok guard)) :
    Sound past use guard := by
  obtain ⟨_, sent⟩ := books.shows.channels use _ holds
  exact books.tells _ _ sent

theorem Books.received {guard : LeaseGuard} (received : Received (eventsOf i past) guard) :
    ∃ use, Sound past use guard := by
  obtain ⟨channel, came | came⟩ := received
  · exact ⟨channel, books.tells _ _ (mem_eventsOf.mp came)⟩
  · exact ⟨channel, books.tells _ _ (mem_eventsOf.mp came)⟩

/-- Who has a lease has the one that the provider returned. -/
theorem Books.opened (hasLease : HasLease (eventsOf i past) use lease) :
    OpenedUse past use lease := by
  obtain ⟨request, fetched, returned⟩ | ⟨guard, received, same, holds⟩ := hasLease
  · exact ⟨i, request, mem_eventsOf.mp fetched, mem_eventsOf.mp returned⟩
  · obtain ⟨number, sound⟩ := books.received received
    have renamed : number = use := by rw [← same, sound.named]
    exact renamed ▸ sound.opened lease holds

theorem Books.closes (done : w.answers k = some answer) :
    Closes past k answer := books.tells _ _ (books.shows.answers k answer done) k rfl

/-- An entry of the pending map has the slot of its use. -/
theorem Books.slot_of_inserted (inserted : Inserted past id entry) :
    entry.2 = some ⟨entry.1.use⟩ := by
  obtain ⟨_, made⟩ := inserted
  exact books.tells _ _ made

theorem Books.slot (found : w.pending.lookup id = some entry) : entry.2 = some ⟨entry.1.use⟩ :=
  books.slot_of_inserted (books.shows.pending id entry found)

/-- Who was told of a close that succeeded was told so by the provider. -/
theorem Books.closeSucceeded (spawned : Spawned past task (.closing provider lease))
    (closes : Closes past task (some (.ok closed))) : CloseSucceeded past lease := by
  obtain ⟨_, _, again, made⟩ := closes
  cases books.shows.same_work spawned again
  exact ⟨.task task, provider, closed, made⟩

/-- The replies that the shared state gives. -/
theorem Books.honest (i : Participant) : Honest (eventsOf i past) where
  guards guard received := by
    obtain ⟨_, sound⟩ := books.received received
    exact sound.fresh
  removed id subject slot member :=
    books.slot_of_inserted (books.tells _ _ (mem_eventsOf.mp member))
  returned id entry entry' inserted removed :=
    books.numbered.once (books.tells _ _ (mem_eventsOf.mp removed)) ⟨i, mem_eventsOf.mp inserted⟩
  taken entries member := by
    obtain ⟨-, distinct, inserted⟩ := books.tells _ _ (mem_eventsOf.mp member)
    exact ⟨fun entry found => books.slot_of_inserted (inserted entry found), distinct⟩

end

theorem mem_entries : (id, entry) ∈ w.entries ↔ w.pending.lookup id = some entry := by
  unfold LeaseState.entries
  rw [mem_mergeSort, mem_map, ← Option.mem_def, AList.mem_lookup_iff]
  constructor
  · rintro ⟨⟨_, _⟩, member, same⟩
    cases same
    exact member
  · intro member
    exact ⟨⟨id, entry⟩, member, rfl⟩

theorem entries_nodup : (w.entries.map Prod.fst).Nodup := by
  have perm := mergeSort_perm (w.pending.entries.map fun entry => (entry.1, entry.2))
    (fun a b => a.1 ≤ b.1)
  have keys := w.pending.nodupKeys
  apply (perm.map Prod.fst).nodup_iff.mpr
  rwa [map_map]

/-- No two entries of the pending map are of one use. -/
def Distinct (w : LeaseState) : Prop :=
  ∀ id id' entry entry', w.pending.lookup id = some entry → w.pending.lookup id' = some entry' →
    entry.1.use = entry'.1.use → id = id'

theorem uses_nodup (sole : Distinct w) : (w.entries.map fun entry => entry.2.1.use).Nodup := by
  apply List.Nodup.map_on
  · rintro ⟨id, entry⟩ first ⟨id', entry'⟩ second same
    have found := mem_entries.mp first
    have found' := mem_entries.mp second
    cases sole id id' entry entry' found found' same
    cases found.symm.trans found'
    rfl
  · exact entries_nodup.of_map _

theorem removePending_answered
    (answered : LeaseAnswers w i (.removePending id) taken w') : w.pending.lookup id = taken := by
  cases answered
  rfl

theorem Books.tells_now (books : Books past w) (answered : LeaseAnswers w i c r w')
    (requires : Requires (eventsOf i past) c) (sole : Distinct w) :
    Tells (past ++ [(i, ⟨c, r⟩)]) i ⟨c, r⟩ := by
  have sends {use : Nat} {opened : Opened}
      (requires : Requires (eventsOf i past) (.send use opened))
      (guard : LeaseGuard) (sent : opened = .ok guard) : Sound past use guard := by
    subst sent
    obtain ⟨-, same, fresh, -, _, holds, hasLease⟩ := requires
    refine ⟨fresh, same, fun _ found => ?_⟩
    cases holds.symm.trans found
    exact books.opened hasLease
  cases answered <;> first | trivial | skip
  case spawnOn work =>
    cases work with
    | opening slot =>
      have reserved : i = .request slot.use :=
        books.tells i ⟨.reserve, some slot⟩ (mem_eventsOf.mp (by rw [requires]; simp))
      subst reserved
      simp only [Tells]
      rw [eventsOf_concat_self, requires]
      exact prefix_refl _
    | closing => trivial
    | cleanup =>
      obtain ⟨subject, slot, inserted, hasLease, closers⟩ := requires
      refine ⟨subject, slot, Happened.concat ⟨i, mem_eventsOf.mp inserted⟩,
        (books.opened hasLease).concat, fun task same => ?_⟩
      obtain ⟨closer, spawned⟩ := closers task same
      exact ⟨closer, Happened.concat ⟨i, mem_eventsOf.mp spawned⟩⟩
  case fetchWork id work spawned =>
    exact ⟨id, rfl, ((books.shows.tasks id work).mp spawned).concat⟩
  case openWrappedKey =>
    obtain ⟨slot, history⟩ := requires
    refine ⟨slot, ?_⟩
    rw [eventsOf_concat_self, history]
    exact prefix_refl _
  case complete id answer =>
    rintro _ ⟨⟩
    obtain ⟨provider, lease, history⟩ := requires
    obtain ⟨_, same, spawned⟩ := books.tells (.task id) ⟨.fetchWork, .closing provider lease⟩
      (mem_eventsOf.mp (by simp [history]))
    cases same
    exact ⟨provider, lease, spawned.concat,
      mem_append_left _ (mem_eventsOf.mp (by simp [history]))⟩
  case sent opened _ | unsent opened _ =>
    cases opened with
    | error => trivial
    | ok guard => exact (sends requires guard rfl).concat
  case received opened holds | droppedHolding opened holds =>
    cases opened with
    | error => trivial
    | ok => exact (books.channel holds).concat
  case awaitClose done | join done => exact (books.closes done).concat
  case insertPending => exact requires.1
  case removePending id =>
    cases found : w.pending.lookup id with
    | none => trivial
    | some => exact (books.shows.pending id _ found).concat
  case takePending =>
    refine ⟨Happened.concat ⟨i, mem_eventsOf.mp requires⟩, uses_nodup sole, fun entry member => ?_⟩
    exact (books.shows.pending _ _ (mem_entries.mp member)).concat
  case record outcome subject _ =>
    cases outcome <;> first | trivial | skip
    case closedAfterReturn =>
      obtain ⟨id, _, lease, _, _, task, _, fetched, removed, joined, spawned⟩ := requires.2.2 rfl
      obtain ⟨k, -, _, spawns⟩ := books.tells _ _ (mem_eventsOf.mp fetched)
      obtain ⟨_, _, inserted, opened, closers⟩ := books.tells _ _ spawns
      -- the entry under the number is the one that the cleanup was spawned for
      cases books.numbered.once inserted (books.tells _ _ (mem_eventsOf.mp removed))
      refine ⟨lease, opened.concat, CloseSucceeded.concat ?_⟩
      have closes : Closes past task _ := books.tells _ _ (mem_eventsOf.mp joined)
      rcases spawned with given | ⟨_, spawned⟩
      · obtain ⟨_, spawned⟩ := closers task given
        exact books.closeSucceeded spawned closes
      · exact books.closeSucceeded ⟨i, mem_eventsOf.mp spawned⟩ closes

theorem Books.step (books : Books past w) (answered : LeaseAnswers w i c r w')
    (requires : Requires (eventsOf i past) c) (few : draws (past ++ [(i, ⟨c, r⟩)]) < 2 ^ 64)
    (sole : Distinct w) : Books (past ++ [(i, ⟨c, r⟩)]) w' where
  numbered := books.numbered.step answered requires few
  shows := books.shows.step answered
  tells j event made := by
    rcases mem_concat.mp made with old | new
    · exact (books.tells j event old).concat
    · cases new
      exact books.tells_now answered requires sole

end KeyRack.Service.Lease
