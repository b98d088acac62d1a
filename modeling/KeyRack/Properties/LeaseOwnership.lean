import KeyRack.Properties.LeaseBooks

/-!
# Who has the slot of a use

The slot of a use is in one place at a time: with a participant, with a task that has not
begun, in a channel, in the pending map, or dropped. What left the pending map does not
come back, so it leaves once and is recorded once, and the slots that are not dropped are
as many as the owner counts.
-/
namespace KeyRack.Service.Lease

open Process Trace Ownership List

variable {w w' : LeaseState} {i : Participant} {c : LeaseCall} {r : c.Reply} {past : Past}

/-! ### Who has the slot of a use -/

inductive Owner where
  | thread (i : Participant)
  | spawned (k : TaskId)
  | channel (use : Nat)
  | pending (id : Nat)
  | dropped

def holds (past : Past) (w : LeaseState) : Owner → Nat → Prop
  | .thread i, n => Hand (eventsOf i past) n
  | .spawned k, n =>
    (∃ request, w.tasks[k]? = some (.opening ⟨n⟩ request)) ∧ eventsOf (.task k) past = []
  | .channel m, n => ∃ guard, w.channels m = .holds (.ok guard) ∧ guard.subject.use = n
  | .pending id, n => ∃ entry, w.pending.lookup id = some entry ∧ entry.1.use = n
  | .dropped, n => ∃ i, (i, ⟨.dropSlot ⟨n⟩, ()⟩) ∈ past

/-- Where the slots go that an event moves. -/
def destination (i : Participant) : LeaseEvent → Owner
  | ⟨.spawnOn (.opening _ _), k⟩ => .spawned k
  | ⟨.send use _, true⟩ => .channel use
  | ⟨.insertPending id _, _⟩ => .pending id
  | ⟨.dropSlot _, _⟩ => .dropped
  | _ => .thread i

def Moved (event : LeaseEvent) (n : Nat) : Prop := n ∈ grabs event ∨ n ∈ releases event

variable {event : LeaseEvent} {n : Nat}

theorem destination_of_grabs (grabbed : n ∈ grabs event) : destination i event = .thread i := by
  unfold grabs at grabbed
  split at grabbed <;> first | rfl | cases grabbed

theorem grabs_of_releases (released : n ∈ releases event) : grabs event = [] := by
  unfold releases at released
  split at released <;> first | rfl | cases released

/-- A slot that leaves a participant was in its hand. -/
theorem hand_of_releases (requires : Requires (eventsOf i past) c)
    (released : n ∈ releases ⟨c, r⟩) :
    Hand (eventsOf i past) n ∧ (c = .dropSlot ⟨n⟩ ∨ ¬Removed (eventsOf i past) n) := by
  unfold releases at released
  split at released
  · next same =>
    cases same
    cases mem_singleton.mp released
    rw [requires]
    exact ⟨by simp [Hand, grabs, releases], .inr (by simp [Noted, removals])⟩
  · next opened same =>
    cases same
    cases opened with
    | error => cases released
    | ok =>
      obtain ⟨hand, named, fresh, kept, -⟩ := requires
      rw [usesIn, fresh.slot, usesOf, mem_singleton, named] at released
      subst released
      exact ⟨hand, .inr kept⟩
  · next same =>
    cases same
    obtain ⟨slot, hand, kept, -⟩ := requires
    rw [slot, usesOf, mem_singleton] at released
    subst released
    exact ⟨hand, .inr kept⟩
  · next same =>
    cases same
    cases mem_singleton.mp released
    exact ⟨requires.1, .inl rfl⟩
  · cases released

/-- A slot that comes to a participant is that of a new use, or leaves its place. -/
theorem source_of_grabs (books : Books past w) (answered : LeaseAnswers w i c r w')
    (requires : Requires (eventsOf i past) c) (grabbed : n ∈ grabs ⟨c, r⟩) :
    (⟨c, r⟩ : LeaseEvent) = ⟨.reserve, some ⟨n⟩⟩ ∨
      ∃ o, holds past w o n ∧ ¬holds (past ++ [(i, ⟨c, r⟩)]) w' o n := by
  have received {channel : Nat} {opened : Opened} (came : w.channels channel = .holds opened)
      (awaits : c = .awaitOpen channel) (inside : n ∈ usesIn opened) :
      ∃ o, holds past w o n ∧ ¬holds (past ++ [(i, ⟨c, r⟩)]) w' o n := by
    cases opened with
    | error => cases inside
    | ok guard =>
      have sound := books.channel came
      rw [usesIn, sound.fresh.slot, usesOf, mem_singleton] at inside
      refine ⟨.channel channel, ⟨guard, came, inside.symm⟩, ?_⟩
      rintro ⟨_, held, -⟩
      rcases channel_of_answered answered held with sent | ⟨-, other⟩
      · subst awaits
        cases sent
      · exact other awaits
  have taken {id : Nat} {entry : PendingEntry} (found : w.pending.lookup id = some entry)
      (removes : c = .removePending id ∨ c = .takePending) (inside : n ∈ usesOf entry.2) :
      ∃ o, holds past w o n ∧ ¬holds (past ++ [(i, ⟨c, r⟩)]) w' o n := by
    rw [books.slot found, usesOf, mem_singleton] at inside
    refine ⟨.pending id, ⟨entry, found, inside.symm⟩, ?_⟩
    rintro ⟨_, held, -⟩
    rcases pending_of_answered answered held with inserts | ⟨-, other, other'⟩
    · rcases removes with same | same
      · cases same.symm.trans inserts
      · cases same.symm.trans inserts
    · exact removes.elim other other'
  unfold grabs at grabbed
  split at grabbed
  · next same =>
    cases same
    cases mem_singleton.mp grabbed
    exact .inl rfl
  · next request same =>
    cases same
    cases mem_singleton.mp grabbed
    right
    cases answered with
    | fetchWork id _ spawned =>
      refine ⟨.spawned id, ⟨⟨request, spawned⟩, requires⟩, ?_⟩
      rintro ⟨-, unfetched⟩
      rw [eventsOf_concat_self] at unfetched
      simp at unfetched
  · next same =>
    cases same
    right
    cases answered
    exact received (by assumption) rfl grabbed
  · next same =>
    cases same
    right
    cases answered
    exact received (by assumption) rfl grabbed
  · next same =>
    cases same
    exact .inr (taken (removePending_answered answered) (.inl rfl) grabbed)
  · next same =>
    cases same
    right
    obtain ⟨⟨_, _⟩, member, inside⟩ := mem_flatMap.mp grabbed
    cases answered
    exact taken (mem_entries.mp member) (.inr rfl) inside
  · cases grabbed

variable {o : Owner}

/-- Nothing but the moved slots changes hands. -/
theorem holds_kept (requires : Requires (eventsOf i past) c) (answered : LeaseAnswers w i c r w')
    (held : holds (past ++ [(i, ⟨c, r⟩)]) w' o n) :
    holds past w o n ∨ (o = destination i ⟨c, r⟩ ∧ Moved ⟨c, r⟩ n) := by
  cases o with
  | thread j =>
    change Hand (eventsOf j (past ++ [(i, ⟨c, r⟩)])) n at held
    by_cases same : j = i
    · subst same
      rw [eventsOf_concat_self, hand_concat] at held
      rcases held with ⟨before, -⟩ | grabbed
      · exact .inl before
      · exact .inr ⟨(destination_of_grabs grabbed).symm, .inl grabbed⟩
    · rw [eventsOf_concat_ne (Ne.symm same)] at held
      exact .inl held
  | spawned =>
    obtain ⟨⟨request, found⟩, unfetched⟩ := held
    rcases (tasks_answered answered).mp found with old | new
    · exact .inl ⟨⟨request, old⟩, eventsOf_concat_eq_nil unfetched⟩
    · rw [new]
      exact .inr ⟨rfl, .inr (by simp [releases])⟩
  | channel =>
    obtain ⟨guard, found, named⟩ := held
    rcases channel_of_answered answered found with sent | ⟨before, -⟩
    · cases sent
      refine .inr ⟨rfl, .inr ?_⟩
      obtain ⟨-, -, fresh, -⟩ := requires
      simp [releases, usesIn, fresh.slot, usesOf, named]
    · exact .inl ⟨guard, before, named⟩
  | pending =>
    obtain ⟨entry, found, named⟩ := held
    rcases pending_of_answered answered found with rfl | ⟨before, -⟩
    · refine .inr ⟨rfl, .inr ?_⟩
      obtain ⟨slot, -⟩ := requires
      simp [releases, slot, usesOf, named]
    · exact .inl ⟨entry, before, named⟩
  | dropped =>
    obtain ⟨j, made⟩ := held
    rcases mem_concat.mp made with old | new
    · exact .inl ⟨j, old⟩
    · cases new
      exact .inr ⟨rfl, .inr (by simp [releases])⟩

/-! ### Uses along a history -/

/-- The uses that the events of a history name, in order. -/
def usesAlong (f : LeaseEvent → List Nat) (past : Past) : List Nat :=
  past.flatMap fun made => f made.2

section
variable {n : Nat}

theorem usesAlong_concat : usesAlong f (past ++ [(i, event)]) = usesAlong f past ++ f event := by
  simp [usesAlong]

theorem mem_usesAlong : n ∈ usesAlong f past ↔ ∃ i event, (i, event) ∈ past ∧ n ∈ f event := by
  simp [usesAlong]

theorem nodup_usesAlong_concat (before : (usesAlong f past).Nodup) (now : (f event).Nodup)
    (new : ∀ n ∈ f event, n ∉ usesAlong f past) : (usesAlong f (past ++ [(i, event)])).Nodup := by
  rw [usesAlong_concat, nodup_append']
  exact ⟨before, now, fun n old again => new n again old⟩

theorem noted_iff : Noted f (eventsOf i past) n ↔ ∃ event, (i, event) ∈ past ∧ n ∈ f event := by
  simp [Noted, mem_eventsOf]

end

/-! ### One owner at a time -/

/-- The request of the use was admitted. -/
def Reserved (past : Past) (n : Nat) : Prop := (.request n, ⟨.reserve, some ⟨n⟩⟩) ∈ past

structure Owned (past : Past) (w : LeaseState) : Prop where
  sole : Sole (holds past w)
  reserved : ∀ o n, holds past w o n → Reserved past n
  -- what left the pending map does not come back into it
  removed : ∀ o n, holds past w o n → n ∈ usesAlong removals past →
    o = .dropped ∨ ∃ i, o = .thread i ∧ Removed (eventsOf i past) n
  past : ∀ n ∈ usesAlong removals past, Reserved past n

/-- A use that is admitted now is new. -/
theorem reserve_is_new (answered : LeaseAnswers w i c r w')
    (requires : Requires (eventsOf i past) c) (now : (⟨c, r⟩ : LeaseEvent) = ⟨.reserve, some ⟨n⟩⟩) :
    i = .request n ∧ ¬Reserved past n := by
  cases now
  cases answered
  refine ⟨rfl, fun earlier => ?_⟩
  have own := mem_eventsOf.mpr earlier
  rw [requires] at own
  cases own

variable {j : Participant}

theorem Removed.later (removed : Removed (eventsOf j past) n) :
    Removed (eventsOf j (past ++ [(i, event)])) n := by
  obtain ⟨earlier, member, inside⟩ := removed
  exact ⟨earlier, (eventsOf_grows j past _).subset member, inside⟩

/-- What is taken out of the pending map was in it, and comes into the taker's hand. -/
theorem pending_of_removals (books : Books past w) (answered : LeaseAnswers w i c r w')
    (taken : n ∈ removals ⟨c, r⟩) : (∃ id, holds past w (.pending id) n) ∧ n ∈ grabs ⟨c, r⟩ := by
  unfold removals at taken
  split at taken
  · next id entry same =>
    cases same
    have found := removePending_answered answered
    cases mem_singleton.mp taken
    exact ⟨⟨id, entry, found, rfl⟩, by simp [grabs, books.slot found, usesOf]⟩
  · next same =>
    cases same
    cases answered
    obtain ⟨⟨id, entry⟩, member, rfl⟩ := mem_map.mp taken
    have found := mem_entries.mp member
    exact ⟨⟨id, entry, found, rfl⟩,
      mem_flatMap.mpr ⟨(id, entry), member, by simp [books.slot found, usesOf]⟩⟩
  · cases taken

/-- An event that brings slots takes none away. -/
theorem hand_kept_of_grabs (grabbed : n ∈ grabs event) (hand : Hand (eventsOf j past) n) :
    Hand (eventsOf j (past ++ [(i, event)])) n := by
  by_cases same : j = i
  · subst same
    rw [eventsOf_concat_self]
    exact hand_concat.mpr (.inr grabbed)
  · rwa [eventsOf_concat_ne (Ne.symm same)]

section
variable (owned : Owned past w) (books : Books past w) (answered : LeaseAnswers w i c r w')
  (requires : Requires (eventsOf i past) c)
include owned books answered requires

theorem Owned.sole_step : Sole (holds (past ++ [(i, ⟨c, r⟩)]) w') := by
  apply owned.sole.move fun o n => o = destination i ⟨c, r⟩ ∧ Moved ⟨c, r⟩ n
  · intro _ _ _ first second
    exact first.1.trans second.1.symm
  · rintro _ n ⟨-, grabbed | released⟩
    · rcases source_of_grabs books answered requires grabbed with new | source
      · left
        intro o held
        exact (reserve_is_new answered requires new).2 (owned.reserved o n held)
      · exact .inr source
    · right
      refine ⟨.thread i, (hand_of_releases requires released).1, ?_⟩
      intro still
      change Hand (eventsOf i (past ++ [(i, ⟨c, r⟩)])) n at still
      rw [eventsOf_concat_self, hand_concat, grabs_of_releases released] at still
      simp [released] at still
  · intro o n held
    exact holds_kept requires answered held

theorem Owned.reserved_step (held : holds (past ++ [(i, ⟨c, r⟩)]) w' o n) :
    Reserved (past ++ [(i, ⟨c, r⟩)]) n := by
  rcases holds_kept requires answered held with before | ⟨-, grabbed | released⟩
  · exact mem_append_left _ (owned.reserved o n before)
  · rcases source_of_grabs books answered requires grabbed with new | ⟨source, gave, -⟩
    · obtain ⟨rfl, -⟩ := reserve_is_new answered requires new
      rw [new]
      exact mem_concat_self
    · exact mem_append_left _ (owned.reserved source n gave)
  · have hand := (hand_of_releases requires released).1
    exact mem_append_left _ (owned.reserved (.thread i) n hand)

/-- A slot whose use left the pending map goes nowhere but away. -/
theorem Owned.removed_step (held : holds (past ++ [(i, ⟨c, r⟩)]) w' o n)
    (removed : n ∈ usesAlong removals (past ++ [(i, ⟨c, r⟩)])) :
    o = .dropped ∨ ∃ j, o = .thread j ∧ Removed (eventsOf j (past ++ [(i, ⟨c, r⟩)])) n := by
  rw [usesAlong_concat, mem_append] at removed
  rcases removed with earlier | now
  · rcases holds_kept requires answered held with before | ⟨there, grabbed | released⟩
    · rcases owned.removed o n before earlier with gone | ⟨j, rfl, removed⟩
      · exact .inl gone
      · exact .inr ⟨j, rfl, removed.later⟩
    · -- a grabbed slot comes from a place where no removed use has its slot
      rcases source_of_grabs books answered requires grabbed with new | ⟨source, gave, left⟩
      · exact absurd (owned.past n earlier) (reserve_is_new answered requires new).2
      · rcases owned.removed source n gave earlier with rfl | ⟨j, rfl, _⟩
        · obtain ⟨j, made⟩ := gave
          exact absurd ⟨j, mem_append_left _ made⟩ left
        · exact absurd (hand_kept_of_grabs grabbed gave) left
    · obtain ⟨hand, drops | kept⟩ := hand_of_releases requires released
      · subst drops
        exact .inl there
      · rcases owned.removed (.thread i) n hand earlier with gone | ⟨j, same, removed⟩
        · cases gone
        · cases same
          exact absurd removed kept
  · have grabbed := (pending_of_removals books answered now).2
    have mine : holds (past ++ [(i, ⟨c, r⟩)]) w' (.thread i) n := by
      change Hand (eventsOf i (past ++ [(i, ⟨c, r⟩)])) n
      rw [eventsOf_concat_self]
      exact hand_concat.mpr (.inr grabbed)
    have same := owned.sole_step books answered requires o (.thread i) n held mine
    refine .inr ⟨i, same, ?_⟩
    rw [eventsOf_concat_self]
    exact noted_concat.mpr (.inr now)

theorem Owned.step :
    Owned (past ++ [(i, ⟨c, r⟩)]) w' where
  sole := owned.sole_step books answered requires
  reserved o n held := owned.reserved_step books answered requires held
  removed o n held removed := owned.removed_step books answered requires held removed
  past n removed := by
    rw [usesAlong_concat, mem_append] at removed
    rcases removed with earlier | now
    · exact mem_append_left _ (owned.past n earlier)
    · obtain ⟨⟨_, held⟩, -⟩ := pending_of_removals books answered now
      exact mem_append_left _ (owned.reserved _ n held)

end

/-! ### Once removed, once recorded -/

structure Once (past : Past) : Prop where
  removals : (usesAlong removals past).Nodup
  finals : (usesAlong finals past).Nodup
  remover : ∀ i j n, Removed (eventsOf i past) n → Removed (eventsOf j past) n → i = j
  recorder : ∀ i n, FinallyRecorded (eventsOf i past) n → Removed (eventsOf i past) n

theorem noted_of_concat (noted : Noted f (eventsOf j (past ++ [(i, event)])) n) :
    Noted f (eventsOf j past) n ∨ (j = i ∧ n ∈ f event) := by
  by_cases same : j = i
  · subst same
    rw [eventsOf_concat_self, noted_concat] at noted
    exact noted.imp_right fun now => ⟨rfl, now⟩
  · rw [eventsOf_concat_ne (Ne.symm same)] at noted
    exact .inl noted

/-- Who records a use finally took it out of the pending map and has not recorded it. -/
theorem requires_of_finals (requires : Requires (eventsOf i past) c) (final : n ∈ finals ⟨c, r⟩) :
    Removed (eventsOf i past) n ∧ ¬FinallyRecorded (eventsOf i past) n := by
  unfold finals at final
  split at final
  · cases final
  · next outcome _ _ _ scheduled same =>
    cases same
    cases mem_singleton.mp final
    cases outcome <;> first | exact ⟨requires.1, requires.2.1⟩ | exact absurd rfl scheduled
  · cases final

theorem finals_nodup (event : LeaseEvent) : (finals event).Nodup := by
  unfold finals
  split <;> simp

theorem removals_nodup (books : Books past w) (made : (i, event) ∈ past) :
    (removals event).Nodup := by
  unfold removals
  split
  · simp
  · exact (books.tells _ _ made).2.1
  · exact nodup_nil

/-- What is in the pending map was never taken out of it. -/
theorem Owned.not_removed_before (owned : Owned past w) (books : Books past w)
    (answered : LeaseAnswers w i c r w') (now : n ∈ removals ⟨c, r⟩) :
    n ∉ usesAlong removals past := by
  intro earlier
  obtain ⟨⟨_, held⟩, -⟩ := pending_of_removals books answered now
  rcases owned.removed _ n held earlier with gone | ⟨j, gone, -⟩
  · cases gone
  · cases gone

theorem Once.step (once : Once past) (owned : Owned past w) (books : Books past w)
    (answered : LeaseAnswers w i c r w') (requires : Requires (eventsOf i past) c)
    (later : Books (past ++ [(i, ⟨c, r⟩)]) w') : Once (past ++ [(i, ⟨c, r⟩)]) where
  removals := by
    apply nodup_usesAlong_concat once.removals
    · exact removals_nodup later mem_concat_self
    · intro n now
      exact owned.not_removed_before books answered now
  finals := by
    apply nodup_usesAlong_concat once.finals (finals_nodup _)
    intro n now earlier
    obtain ⟨j, event, made, inside⟩ := mem_usesAlong.mp earlier
    obtain ⟨removed, unrecorded⟩ := requires_of_finals requires now
    have recorded : FinallyRecorded (eventsOf j past) n :=
      noted_iff.mpr ⟨event, made, inside⟩
    have same := once.remover i j n removed (once.recorder j n recorded)
    exact unrecorded (same ▸ recorded)
  remover j k n first second := by
    have unremoved (now : n ∈ Lease.removals ⟨c, r⟩) (l : Participant) :
        ¬Removed (eventsOf l past) n := by
      intro before
      obtain ⟨event, made, inside⟩ := noted_iff.mp before
      exact owned.not_removed_before books answered now (mem_usesAlong.mpr ⟨l, event, made, inside⟩)
    rcases noted_of_concat first with before | ⟨rfl, now⟩
    · rcases noted_of_concat second with before' | ⟨rfl, now⟩
      · exact once.remover j k n before before'
      · exact absurd before (unremoved now j)
    · rcases noted_of_concat second with before' | ⟨rfl, -⟩
      · exact absurd before' (unremoved now k)
      · rfl
  recorder j n recorded := by
    rcases noted_of_concat recorded with before | ⟨rfl, now⟩
    · exact (once.recorder j n before).later
    · exact (requires_of_finals requires now).1.later

/-! ### Slots taken and given back -/

def reserves : LeaseEvent → List Nat
  | ⟨.reserve, some slot⟩ => [slot.use]
  | _ => []

def drops : LeaseEvent → List Nat
  | ⟨.dropSlot slot, _⟩ => [slot.use]
  | _ => []

structure Counted (limit : Nat) (past : Past) (w : LeaseState) : Prop where
  fixed : w.limit = limit
  bounded : w.occupied ≤ limit
  reserved : (usesAlong reserves past).Nodup
  dropped : (usesAlong drops past).Nodup
  balance : w.occupied + (usesAlong drops past).length = (usesAlong reserves past).length

theorem mem_reserves : n ∈ reserves event ↔ event = ⟨.reserve, some ⟨n⟩⟩ := by
  constructor
  · intro member
    unfold reserves at member
    split at member
    · cases mem_singleton.mp member
      rfl
    · cases member
  · rintro rfl
    exact mem_singleton_self n

theorem mem_drops : n ∈ drops event ↔ event = ⟨.dropSlot ⟨n⟩, ()⟩ := by
  constructor
  · intro member
    unfold drops at member
    split at member
    · cases mem_singleton.mp member
      rfl
    · cases member
  · rintro rfl
    exact mem_singleton_self n

theorem dropped_iff : n ∈ usesAlong drops past ↔ holds past w .dropped n := by
  simp [mem_usesAlong, mem_drops, holds]

theorem reserved_iff (books : Books past w) : n ∈ usesAlong reserves past ↔ Reserved past n := by
  simp only [mem_usesAlong, mem_reserves, exists_eq_right]
  constructor
  · rintro ⟨i, made⟩
    cases books.tells _ _ made
    exact made
  · intro made
    exact ⟨_, made⟩

/-- The slots that are not dropped count. -/
theorem Counted.length_le (counted : Counted limit past w) (books : Books past w)
    (owned : Owned past w) {uses : List Nat} (distinct : uses.Nodup)
    (reserved : ∀ n ∈ uses, Reserved past n) (kept : ∀ n ∈ uses, n ∉ usesAlong drops past) :
    uses.length ≤ w.occupied := by
  have together : (uses ++ usesAlong drops past).Nodup := by
    rw [nodup_append']
    exact ⟨distinct, counted.dropped, fun n mine gone => kept n mine gone⟩
  have inside : uses ++ usesAlong drops past ⊆ usesAlong reserves past := by
    intro n member
    apply (reserved_iff books).mpr
    rcases mem_append.mp member with mine | gone
    · exact reserved n mine
    · exact owned.reserved .dropped n (dropped_iff.mp gone)
  have lengths := (subperm_of_subset together inside).length_le
  have balance := counted.balance
  rw [length_append] at lengths
  omega

/-- A number that was not used has no entry. -/
theorem Books.unreplaced {id : Nat} (books : Books past w) (requires : Requires (eventsOf i past) c)
    (inserts : c = .insertPending id entry) : w.replaced id = 0 := by
  subst inserts
  cases found : w.pending.lookup id with
  | none => simp [LeaseState.replaced, found]
  | some old =>
    obtain ⟨j, made⟩ := books.shows.pending id old found
    cases books.numbered.sole (.inl i) (.inr (j, old)) id requires.2.2.2.1 made

/-- The count follows what an event takes and gives back. -/
theorem occupied_of_answered (answered : LeaseAnswers w i c r w')
    (unreplaced : ∀ id entry, c = .insertPending id entry → w.replaced id = 0) :
    (w'.occupied ≤ w.occupied ∨ w'.occupied ≤ w.limit) ∧
      (drops ⟨c, r⟩ = [] ∨ 0 < w.occupied →
        w'.occupied + (drops ⟨c, r⟩).length = w.occupied + (reserves ⟨c, r⟩).length) := by
  cases answered <;> first | exact ⟨.inl (Nat.le_refl _), fun _ => rfl⟩ | skip
  case reserved room => exact ⟨.inr room, fun _ => rfl⟩
  case insertPending id entry =>
    rw [unreplaced id entry rfl]
    exact ⟨.inl (Nat.le_refl _), fun _ => rfl⟩
  case dropSlot =>
    exact ⟨.inl (Nat.sub_le _ 1), fun given => Nat.sub_add_cancel (given.resolve_left nofun)⟩

theorem limit_kept (answered : LeaseAnswers w i c r w') : w'.limit = w.limit := by
  cases answered <;> rfl

/-- A slot that is in hand is not dropped. -/
theorem Owned.not_dropped (owned : Owned past w) (held : holds past w (.thread i) n) :
    n ∉ usesAlong drops past := by
  intro gone
  cases owned.sole _ .dropped n held (dropped_iff.mp gone)

theorem Counted.step (counted : Counted limit past w) (owned : Owned past w)
    (books : Books past w) (answered : LeaseAnswers w i c r w')
    (requires : Requires (eventsOf i past) c) : Counted limit (past ++ [(i, ⟨c, r⟩)]) w' := by
  have fixed := counted.fixed
  have bounded := counted.bounded
  have balance := counted.balance
  have hand (n : Nat) (given : n ∈ drops ⟨c, r⟩) : holds past w (.thread i) n := by
    cases mem_drops.mp given
    exact requires.1
  have positive : drops ⟨c, r⟩ = [] ∨ 0 < w.occupied := by
    refine (Classical.em _).imp_right fun given => ?_
    obtain ⟨n, given⟩ := exists_mem_of_ne_nil _ given
    apply counted.length_le books owned (nodup_singleton n)
    · simpa using owned.reserved _ n (hand n given)
    · simpa using owned.not_dropped (hand n given)
  obtain ⟨below, counts⟩ := occupied_of_answered answered fun _ _ => books.unreplaced requires
  have changed := counts positive
  refine ⟨(limit_kept answered).trans fixed, by omega, ?_, ?_, ?_⟩
  · apply nodup_usesAlong_concat counted.reserved (by unfold reserves; split <;> simp)
    intro n now earlier
    exact (reserve_is_new answered requires (mem_reserves.mp now)).2
      ((reserved_iff books).mp earlier)
  · apply nodup_usesAlong_concat counted.dropped (by unfold drops; split <;> simp)
    intro n now
    exact owned.not_dropped (hand n now)
  · rw [usesAlong_concat, usesAlong_concat, length_append, length_append]
    omega

end KeyRack.Service.Lease
