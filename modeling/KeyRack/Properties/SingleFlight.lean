import KeyRack.Lib.Schedule
import KeyRack.Properties.Provisioning

/-!
# Single-flight provisioning

A call that finds a key missing leads or waits: the first one enters the key in the
in-flight map and holds a guard, the others wait for what it sends. The map has no
entry without a live leader as long as every leader that is dropped finds the map's
lock free; then each key is also generated at most once when nothing fails.
-/
namespace KeyRack

open Process Trace Function Option List

/-! ### The in-flight map -/

variable {lid : Lid}

/-- A key is known to be missing when its leader did not find it. -/
theorem leadStep_missing (leads : leadStep stage event = some (lid, .missing)) :
    stage = some (lid, .missing) ∨ stage = some (lid, .checking) ∧
      ∃ sought named, event = ⟨.getKey sought, .error (.keyNotFound named)⟩ := by
  unfold leadStep at leads
  split at leads
  next => cases leads
  next => cases leads
  next =>
    obtain ⟨⟨_, _⟩, rfl, moved⟩ := map_eq_some_iff.mp leads
    obtain ⟨rfl, isMissing⟩ := Prod.mk.inj moved
    unfold LeadPhase.next at isMissing
    split at isMissing
    next => exact .inr ⟨rfl, _, _, rfl⟩
    next => cases isMissing
    next => cases isMissing
    next =>
      subst isMissing
      exact .inl rfl

section
variable {ι : Type} [DecidableEq ι] {world world' : ProvisionWorld ι} {i : ι}

/-- What a step of one call does to the map and the guards. -/
inductive FlightChange (world world' : ProvisionWorld ι) (i : ι) : Prop where
  | kept (entries : world'.inflight = world.inflight) (notices : world'.notices = world.notices)
      (guards : world'.guards = world.guards)
  | entered (lid : Lid) (free : world.inflight lid = none) (unarmed : world.guards i = none)
      (entries : world'.inflight = update world.inflight lid (some world.channels))
      (notices : world'.notices = world.notices)
      (guards : world'.guards = update world.guards i (some lid))
  | removed (lid : Lid) (channel : Nat) (notice : Notice) (armed : world.guards i = some lid)
      (stored : world.inflight lid = some channel)
      (entries : world'.inflight = update world.inflight lid none)
      (notices : world'.notices = update world.notices channel (some notice))
      (guards : world'.guards = update world.guards i none)

/-- Guards and entries belong together, one to one. -/
structure Flying (world : ProvisionWorld ι) : Prop where
  entry : ∀ lid, (world.inflight lid).isSome = true ↔ ∃ i, world.guards i = some lid
  alone : ∀ i j lid, world.guards i = some lid → world.guards j = some lid → i = j

/-- The entry of a key and the guard of a call change together, if the guard is for no other
    key and no other call has the key's. -/
theorem Flying.update {guard : Option Lid} {entry : Option Nat} (flying : Flying world)
    (mine : ∀ led, world.guards i = some led → led = lid)
    (others : ∀ j, j ≠ i → world.guards j ≠ some lid) (only : ∀ led, guard = some led → led = lid)
    (both : entry.isSome = true ↔ guard = some lid)
    (entries : world'.inflight = update world.inflight lid entry)
    (guards : world'.guards = update world.guards i guard) : Flying world' := by
  have here (j : ι) : world'.guards j = some lid ↔ j = i ∧ guard = some lid := by
    rw [guards, update_apply]
    by_cases same : j = i
    · simp [same]
    · simp [same, others j same]
  have away (j : ι) (led : Lid) (other : led ≠ lid) :
      world'.guards j = some led ↔ world.guards j = some led := by
    rw [guards, update_apply]
    split
    next same =>
      subst same
      exact iff_of_false (fun held => other (only led held)) fun held => other (mine led held)
    next => rfl
  constructor
  · intro led
    rw [entries, update_apply]
    split
    next same => simp [same, here, both]
    next other =>
      simp only [away _ led other]
      exact flying.entry led
  · intro j k led first second
    by_cases same : led = lid
    · subst same
      exact ((here j).mp first).1.trans ((here k).mp second).1.symm
    · exact flying.alone j k led ((away j led same).mp first) ((away k led same).mp second)

theorem FlightChange.flying (change : FlightChange world world' i) (flying : Flying world) :
    Flying world' := by
  cases change with
  | kept entries _ guards =>
    refine ⟨?_, ?_⟩
    · rw [entries, guards]
      exact flying.entry
    · rw [guards]
      exact flying.alone
  | entered lid free unarmed entries _ guards =>
    refine flying.update (fun _ armed => nomatch unarmed.symm.trans armed) (fun j _ armed => ?_)
      (fun _ same => (some.inj same).symm) (by simp) entries guards
    -- nobody led the key before
    have present := (flying.entry lid).mpr ⟨j, armed⟩
    rw [free] at present
    cases present
  | removed lid _ _ armed _ entries _ guards =>
    refine flying.update (fun _ same => some.inj (same.symm.trans armed)) (fun j other also => ?_)
      (by simp) (by simp) entries guards
    exact other (flying.alone j i lid also armed)

/-- A channel has its notice, or is still the one of the key's entry. -/
def ProvisionWorld.Told (world : ProvisionWorld ι) (lid : Lid) (channel : Nat) : Prop :=
  (∃ notice, world.notices channel = some notice) ∨ world.inflight lid = some channel

variable {channel : Nat}

theorem FlightChange.told (change : FlightChange world world' i) (told : world.Told lid channel) :
    world'.Told lid channel := by
  cases change with
  | kept entries notices =>
    rw [ProvisionWorld.Told, entries, notices]
    exact told
  | entered led free _ entries notices =>
    rcases told with known | waits
    · rw [ProvisionWorld.Told, notices]
      exact .inl known
    · have other : lid ≠ led := by
        rintro rfl
        cases free.symm.trans waits
      refine .inr ?_
      rw [entries, update_of_ne other, waits]
  | removed led sender notice _ stored entries notices =>
    rw [ProvisionWorld.Told, entries, notices]
    rcases told with ⟨known, isKnown⟩ | waits
    · by_cases same : channel = sender
      · exact .inl ⟨notice, by rw [same, update_self]⟩
      · exact .inl ⟨known, by rw [update_of_ne same, isKnown]⟩
    · by_cases same : lid = led
      · subst same
        cases stored.symm.trans waits
        exact .inl ⟨notice, update_self ..⟩
      · exact .inr (by rw [update_of_ne same, waits])

omit [DecidableEq ι] in
theorem ProvisionWorld.removeEntry_change (stored : world.inflight lid = some channel) :
    world.removeEntry lid notice = { world with
      inflight := update world.inflight lid none
      notices := update world.notices channel (some notice) } := by
  rw [ProvisionWorld.removeEntry, stored]

theorem FlightChange.guards_of_ne (change : FlightChange world world' i) (other : j ≠ i) :
    world'.guards j = world.guards j := by
  cases change with
  | kept _ _ guards => rw [guards]
  | entered _ _ _ _ _ guards => rw [guards, update_of_ne other]
  | removed _ _ _ _ _ _ _ guards =>
    rw [guards, update_of_ne other]

variable {c : ProvisionCall}

/-- The guard of a call follows its own events. -/
theorem ProvisionCall.Answers.flightChange
    (answered : c.Answers world i reply world') (permitted : Leading past c)
    (held : world.guards i = (leadStage past).map Prod.fst) (flying : Flying world) :
    FlightChange world world' i ∧
      world'.guards i = (leadStage (past ++ [⟨c, reply⟩])).map Prod.fst := by
  cases answered with
  | enter lid =>
    have idle : leadStage past = none := permitted
    rw [idle] at held
    cases found : world.inflight lid with
    | some =>
      simp only [ProvisionWorld.enter, found]
      exact ⟨.kept rfl rfl rfl, by simp [leadStep, idle, held]⟩
    | none =>
      simp only [ProvisionWorld.enter, found]
      refine ⟨.entered lid found held rfl rfl rfl, ?_⟩
      simp [leadStep]
  | finish lid result =>
    obtain ⟨_, _, stands⟩ := permitted
    rw [stands] at held
    obtain ⟨channel, stored⟩ := isSome_iff_exists.mp ((flying.entry lid).mpr ⟨i, held⟩)
    simp only [ProvisionWorld.finish, ProvisionWorld.removeEntry_change stored]
    refine ⟨.removed lid channel (.sent result) held stored rfl rfl rfl, ?_⟩
    simp [leadStep]
  | _ =>
    refine ⟨.kept rfl rfl rfl, ?_⟩
    simpa [leadStep, comp_def] using held

/-- Who waits has just seen the entry. -/
theorem ProvisionCall.Answers.waiter (answered : c.Answers world i reply world')
    (waits : (⟨c, reply⟩ : ProvisionEvent) = ⟨.enter lid, .waiter channel⟩) :
    world'.inflight lid = some channel := by
  cases answered with
  | enter led =>
    cases found : world.inflight led with
    | none =>
      simp only [ProvisionWorld.enter, found] at waits
      cases waits
    | some =>
      simp only [ProvisionWorld.enter, found] at waits ⊢
      cases waits
      exact found
  | _ => cases waits

/-- The guard of a dropped call gets the lock: nobody has it, or only the call's own
    request does. -/
def Releases {ι : Type} [DecidableEq ι] (s : ProvisionSystem ι) : ProvisionLabel ι → Prop
  | .dropped i => s.world.guards i ≠ none → s.world.lock.holder = none ∨
      (∃ next, s.threads i = .live (.call .awaitLock next)) ∧ s.world.lock.holder = some i ∧
        s.world.lock.waiting = []
  | _ => True

/-- The same, at the call where it is dropped. -/
def Unlocks (world : ProvisionWorld ι) (i : ι) (c : ProvisionCall) : Prop :=
  world.lock.holder = none ∨
    c = .awaitLock ∧ world.lock.holder = some i ∧ world.lock.waiting = []

theorem ProvisionCall.Leaves.drops (left : c.Leaves world i world') :
    ∃ store lock, world' = ProvisionWorld.dropGuard { world with store, lock } i ∧
      (lock.isFree = true ↔ Unlocks world i c) := by
  cases left with
  | get | generate | recv => exact ⟨world.store, world.lock, rfl, by simp [Mutex.isFree, Unlocks]⟩
  | create _ _ store => exact ⟨store, world.lock, rfl, by simp [Mutex.isFree, Unlocks]⟩
  | awaitLock =>
    refine ⟨world.store, world.lock.abandon i, rfl, ?_⟩
    rw [Mutex.isFree_abandon]
    simp [Mutex.isFree, Unlocks]

theorem ProvisionCall.Leaves.flightChange (left : c.Leaves world i world') (flying : Flying world)
    (free : world.guards i ≠ none → Unlocks world i c) :
    FlightChange world world' i ∧ world'.guards i = none := by
  obtain ⟨store, lock, rfl, unlocks⟩ := left.drops
  unfold ProvisionWorld.dropGuard
  split
  next unarmed => exact ⟨.kept rfl rfl rfl, unarmed⟩
  next lid armed =>
    obtain ⟨channel, stored⟩ := isSome_iff_exists.mp ((flying.entry lid).mpr ⟨i, armed⟩)
    have unlocked := unlocks.mpr (free fun unarmed => nomatch unarmed.symm.trans armed)
    have entry : { world with store, lock, guards := update world.guards i none }.inflight lid =
      some channel := stored
    rw [if_pos unlocked, ProvisionWorld.removeEntry_change entry]
    exact ⟨.removed lid channel .closed armed stored rfl rfl rfl, update_self ..⟩

/-- Otherwise the guard goes and the entry stays. -/
theorem ProvisionCall.Leaves.stranded (left : c.Leaves world i world')
    (armed : world.guards i ≠ none) (busy : ¬Unlocks world i c) :
    world'.inflight = world.inflight ∧
      world'.guards = update world.guards i none := by
  obtain ⟨lid, isArmed⟩ := ne_none_iff_exists'.mp armed
  obtain ⟨store, lock, rfl, unlocks⟩ := left.drops
  have stuck : ProvisionWorld.dropGuard { world with store, lock } i =
      { world with store, lock, guards := update world.guards i none } := by
    simp only [ProvisionWorld.dropGuard, isArmed]
    exact if_neg (unlocks.not.mpr busy)
  rw [stuck]
  exact ⟨rfl, rfl⟩

end

/-! ### Runs -/

section
variable {ι : Type} {s t : ProvisionSystem ι} {label : ProvisionLabel ι}
  {past : List (ProvisionLabel ι)}

def generates (lid : Lid) : ProvisionLabel ι → Bool
  | .called _ ⟨.generateKey led _ _, _⟩ => led == lid
  | _ => false

/-- How often a key was generated. -/
def generations (lid : Lid) (past : List (ProvisionLabel ι)) : Nat := past.countP (generates lid)

@[simp] theorem generations_append (lid : Lid) (past : List (ProvisionLabel ι))
    (label : ProvisionLabel ι) :
    generations lid (past ++ [label]) =
      generations lid past + if generates lid label then 1 else 0 := by
  simp [generations, countP_append, countP_singleton]

variable [DecidableEq ι]

/-- The guard that a call should hold. -/
def guardOf (past : List (ProvisionLabel ι)) (i : ι) : ProvisionThread → Option Lid
  | .live _ => (leadStage (own i past)).map Prod.fst
  | _ => none

structure Flight (past : List (ProvisionLabel ι)) (s : ProvisionSystem ι) : Prop where
  flying : Flying s.world
  held : ∀ i, s.world.guards i = guardOf past i (s.threads i)
  told : ∀ i lid channel, .called i ⟨.enter lid, .waiter channel⟩ ∈ past → s.world.Told lid channel

abbrev Provisioning (past : List (ProvisionLabel ι)) (s : ProvisionSystem ι) : Prop :=
  Following Leading (fun later _ => leadStage later = none) past s

theorem guardOf_append (others : own i [label] = []) (thread : ProvisionThread) :
    guardOf (past ++ [label]) i thread = guardOf past i thread := by
  cases thread with
  | live => simp only [guardOf, own_append, others, append_nil]
  | idle => rfl
  | dropped => rfl

/-- A step of one call leaves the guards of the others as they should be. -/
theorem Flight.held_update {world : ProvisionWorld ι}
    (flight : Flight past s) (others : ∀ j, j ≠ i → own j [label] = [])
    (kept : ∀ j, j ≠ i → world.guards j = s.world.guards j)
    (self : world.guards i = guardOf (past ++ [label]) i now) (j : ι) :
    world.guards j = guardOf (past ++ [label]) j (update s.threads i now j) := by
  by_cases same : j = i
  · subst same
    rw [update_self, self]
  · rw [update_of_ne same, kept j same, flight.held j, guardOf_append (others j same)]

/-- A key that was generated is stored or about to be, and who found a key missing
    knows that it was not. -/
structure Once (past : List (ProvisionLabel ι)) (s : ProvisionSystem ι) : Prop where
  undropped : ∀ i, s.threads i ≠ .dropped
  once : ∀ lid, generations lid past ≤ 1
  kept : ∀ lid, 0 < generations lid past → (s.world.store lid).isSome = true ∨
    ∃ i, leadStage (own i past) = some (lid, .generated)
  fresh : ∀ i lid, leadStage (own i past) = some (lid, .missing) → generations lid past = 0

/-- No two calls lead the same key. -/
theorem Once.alone (once : Once past s) (flight : Flight past s) (following : Provisioning past s)
    (first : leadStage (own i past) = some (lid, a))
    (second : leadStage (own j past) = some (lid, b)) : i = j := by
  have armed (k : ι) (phase : LeadPhase) (leads : leadStage (own k past) = some (lid, phase)) :
      s.world.guards k = some lid := by
    rw [flight.held k]
    cases thread : s.threads k with
    | live => simp [guardOf, leads]
    | idle =>
      rw [following.idle k thread] at leads
      cases leads
    | dropped => exact absurd thread (once.undropped k)
  exact flight.flying.alone i j lid (armed i a first) (armed j b second)

/-- A step that generates nothing. -/
theorem Once.quiet (once : Once past s) (undropped : ∀ i, t.threads i ≠ .dropped)
    (silent : ∀ lid, generates lid label = false) (grows : s.world.store.Grows t.world.store)
    (kept : ∀ i lid, leadStage (own i past) = some (lid, .generated) →
      leadStage (own i (past ++ [label])) = some (lid, .generated) ∨
        (t.world.store lid).isSome = true)
    (fresh : ∀ i lid, leadStage (own i (past ++ [label])) = some (lid, .missing) →
      leadStage (own i past) = some (lid, .missing) ∨ generations lid past = 0) :
    Once (past ++ [label]) t := by
  have same (lid : Lid) : generations lid (past ++ [label]) = generations lid past := by
    simp [silent lid]
  refine ⟨undropped, fun lid => ?_, fun lid generated => ?_, fun i lid missing => ?_⟩
  · rw [same]
    exact once.once lid
  · rw [same] at generated
    rcases once.kept lid generated with stored | ⟨i, leads⟩
    · exact .inl (grows lid stored)
    · rcases kept i lid leads with still | stored
      · exact .inr ⟨i, still⟩
      · exact .inl stored
  · rw [same]
    rcases fresh i lid missing with before | none
    · exact once.fresh i lid before
    · exact none

theorem leadStage_called (i j : ι) (event : ProvisionEvent) :
    leadStage (own j (past ++ [.called i event])) =
      if j = i then leadStep (leadStage (own i past)) event else leadStage (own j past) := by
  split
  next same =>
    subst same
    simp [own_called_self]
  next other => simp [own_called_ne (Ne.symm other)]

/-- A step that nobody calls for. -/
theorem Once.aside (once : Once past s) (undropped : ∀ i, t.threads i ≠ .dropped)
    (silent : ∀ lid, generates lid label = false) (grows : s.world.store.Grows t.world.store)
    (others : ∀ i, own i [label] = []) : Once (past ++ [label]) t := by
  have same (i : ι) : own i (past ++ [label]) = own i past := by
    rw [own_append, others i, append_nil]
  refine once.quiet undropped silent grows (fun i lid leads => ?_) (fun i _ leads => ?_)
  · rw [same]
    exact .inl leads
  · rw [same] at leads
    exact .inl leads

/-- A call that generates nothing: only the caller's own stage changes. -/
theorem Once.called (once : Once past s) (undropped : ∀ j, t.threads j ≠ .dropped)
    (silent : ∀ lid, generates lid (.called i event : ProvisionLabel ι) = false)
    (grows : s.world.store.Grows t.world.store)
    (kept : ∀ lid, leadStage (own i past) = some (lid, .generated) →
      leadStep (leadStage (own i past)) event = some (lid, .generated) ∨
        (t.world.store lid).isSome = true)
    (fresh : ∀ lid sought named, leadStage (own i past) = some (lid, .checking) →
      event = ⟨.getKey sought, .error (.keyNotFound named)⟩ → generations lid past = 0) :
    Once (past ++ [.called i event]) t := by
  refine once.quiet undropped silent grows (fun j lid leads => ?_) (fun j lid leads => ?_)
  · rw [leadStage_called]
    split
    next same => exact kept lid (same ▸ leads)
    next => exact .inl leads
  · rw [leadStage_called] at leads
    split at leads
    next same =>
      subst same
      rcases leadStep_missing leads with before | ⟨checking, sought, named, same⟩
      · exact .inl before
      · exact .inr (fresh lid sought named checking same)
    next => exact .inl leads

/-- A live call that leads the provisioning of a key. -/
def Leads (s : ProvisionSystem ι) (i : ι) (lid : Lid) : Prop :=
  (∃ c next, s.threads i = .live (.call c next)) ∧ s.world.guards i = some lid

/-- A call that waits for the provider to generate a key. -/
def Generating (s : ProvisionSystem ι) (i : ι) (lid : Lid) : Prop :=
  ∃ entry keySpec next, s.threads i = .live (.call (.generateKey lid entry keySpec) next)

/-- Who holds a guard is live and not at its end. -/
theorem Flight.leads (flight : Flight past s) (following : Provisioning past s)
    (armed : s.world.guards i = some lid) : Leads s i lid := by
  refine ⟨?_, armed⟩
  have held := flight.held i
  rw [armed] at held
  cases thread : s.threads i with
  | idle | dropped =>
    rw [thread] at held
    cases held
  | live p =>
    cases p with
    | call c next => exact ⟨c, next, rfl⟩
    | done =>
      have ended : leadStage (own i past) = none := following.live i _ thread
      rw [thread, guardOf, ended] at held
      cases held

end

section
variable [UnicodeNormalization] [Blake3] {ι : Type} [DecidableEq ι]
  {s t : ProvisionSystem ι} {label : ProvisionLabel ι}

theorem Flight.step (flight : Flight past s) (following : Provisioning past s)
    (step : Step (provisionRules ι provisioner asked) s label t) (released : Releases s label)
    (permitted : label.Allowed Leading past) : Flight (past ++ [label]) t := by
  cases step with
  | start i _ idle =>
    refine ⟨flight.flying, ?_, fun j lid channel member => ?_⟩
    · refine flight.held_update (fun _ _ => rfl) (fun _ _ => rfl) ?_
      rw [flight.held i, idle]
      simp only [guardOf, own_append, following.idle i idle]
      rfl
    · simp only [mem_append, mem_singleton, reduceCtorEq, or_false] at member
      exact flight.told j lid channel member
  | environment _ _ changed =>
    obtain ⟨_, rfl⟩ := changed
    have flying := flight.flying
    refine ⟨⟨flying.entry, flying.alone⟩, fun j => ?_, fun j lid channel member => ?_⟩
    · rw [guardOf_append rfl]
      exact flight.held j
    · simp only [mem_append, mem_singleton, reduceCtorEq, or_false] at member
      exact flight.told j lid channel member
  | call i _ _ _ _ live answered =>
    have held := flight.held i
    rw [live] at held
    obtain ⟨change, self⟩ := answered.flightChange permitted held flight.flying
    refine ⟨change.flying flight.flying, ?_, fun j lid channel member => ?_⟩
    · refine flight.held_update (fun j other => own_called_ne (Ne.symm other) _)
        (fun j other => change.guards_of_ne other) ?_
      simp only [guardOf, own_append, own_called_self]
      exact self
    · rcases mem_concat.mp member with before | now
      · exact change.told (flight.told j lid channel before)
      · cases now
        exact .inr (answered.waiter rfl)
  | drop i c _ _ live left =>
    have free (armed : s.world.guards i ≠ none) : Unlocks s.world i c := by
      refine (released armed).imp_right fun ⟨⟨_, waits⟩, granted⟩ => ⟨?_, granted⟩
      cases live.symm.trans waits
      rfl
    obtain ⟨change, disarmed⟩ := left.flightChange flight.flying free
    refine ⟨change.flying flight.flying, ?_, fun j lid channel member => ?_⟩
    · exact flight.held_update (fun _ _ => rfl) (fun j other => change.guards_of_ne other) disarmed
    · simp only [mem_append, mem_singleton, reduceCtorEq, or_false] at member
      exact change.told (flight.told j lid channel member)

/-! ### Generations -/

/-- Nothing is dropped, and no storage or provider call fails. -/
def Faultless : ProvisionLabel ι → Prop
  | .dropped _ => False
  | .called _ ⟨.getKey _, .error e⟩ => ∃ lid, e = .keyNotFound lid
  | .called _ ⟨.createKey _, .error _⟩ => False
  | .called _ ⟨.generateKey _ _ _, .error _⟩ => False
  | _ => True

theorem Once.step (once : Once past s) (flight : Flight past s) (following : Provisioning past s)
    (step : Step (provisionRules ι provisioner asked) s label t) (faultless : Faultless label)
    (permitted : label.Allowed Leading past) : Once (past ++ [label]) t := by
  have grows := provisionStep_grows step
  have running (i j : ι) (p : ProvisionProg) :
      update s.threads i (.live p) j ≠ .dropped := by
    rw [update_apply]
    split
    next => rintro ⟨⟩
    next => exact once.undropped j
  cases step with
  | start i p =>
    exact once.aside (fun j => running i j p) (fun _ => rfl) grows (fun _ => rfl)
  | environment _ _ changed =>
    exact once.aside once.undropped (fun _ => rfl) grows (fun _ => rfl)
  | drop => exact faultless.elim
  | call i _ next reply _ _ answered =>
    have undropped (j : ι) := running i j (next reply)
    cases answered with
    | get lid _ finds =>
      refine once.called undropped (fun _ => rfl) grows (fun led leads => ?_)
        fun led _ named checking same => ?_
      · exact .inl (by simp [leads, leadStep, LeadPhase.next])
      · cases same
        have own : led = lid := permitted led checking
        subst own
        -- nobody generated the key, or it would be there or led by another call
        refine Nat.eq_zero_of_not_pos fun generated => ?_
        rcases once.kept led generated with stored | ⟨j, generating⟩
        · cases finds with
          | missing absent =>
            rw [absent] at stored
            cases stored
          | failed _ other => exact other named rfl
        · cases once.alone flight following checking generating
          cases checking.symm.trans generating
    | create record _ _ creates =>
      have stands : leadStage (own i past) = some (record.lid, .generated) := permitted
      cases creates with
      | failed e | lost e absent => exact faultless.elim
      | created =>
        refine once.called undropped (fun _ => rfl) grows (fun led leads => ?_)
          (by rintro _ _ _ _ ⟨⟩)
        cases stands.symm.trans leads
        exact .inr (by simp)
    | generate lid _ _ reply =>
      have stands : leadStage (own i past) = some (lid, .missing) := permitted
      have unused : generations lid past = 0 := once.fresh i lid stands
      cases reply with
      | error => exact faultless.elim
      | ok =>
        refine ⟨undropped, fun led => ?_, fun led generated => ?_, fun j led missing => ?_⟩
        · by_cases same : lid = led
          · subst same
            simp [generates, unused]
          · simpa [generates, same] using once.once led
        · by_cases same : lid = led
          · subst same
            refine .inr ⟨i, ?_⟩
            rw [leadStage_called, if_pos rfl, stands]
            rfl
          · have before : 0 < generations led past := by simpa [generates, same] using generated
            rcases once.kept led before with stored | ⟨j, generating⟩
            · exact .inl stored
            · have other : j ≠ i := by
                rintro rfl
                cases stands.symm.trans generating
              refine .inr ⟨j, ?_⟩
              rw [leadStage_called, if_neg other]
              exact generating
        · rw [leadStage_called, stands] at missing
          split at missing
          next => cases missing
          next other =>
            have apart : lid ≠ led := by
              rintro rfl
              exact other (once.alone flight following missing stands)
            simpa [generates, apart] using once.fresh j led missing
    | enter =>
      have idle : leadStage (own i past) = none := permitted
      refine once.called undropped (fun _ => rfl) grows (fun led leads => ?_)
          (by rintro _ _ _ _ ⟨⟩)
      rw [idle] at leads
      cases leads
    | finish =>
      obtain ⟨_, unfinished, stands⟩ := permitted
      refine once.called undropped (fun _ => rfl) grows (fun led leads => ?_)
          (by rintro _ _ _ _ ⟨⟩)
      cases stands.symm.trans leads
      exact absurd rfl unfinished
    | _ =>
      refine once.called undropped (fun _ => rfl) grows (fun led leads => ?_)
          (by rintro _ _ _ _ ⟨⟩)
      exact .inl (by simp [leads, leadStep, LeadPhase.next])

/-! ### Single flight -/

/-- A leader that is dropped while another call has the lock leaves its entry behind. -/
theorem Flight.stranded (flight : Flight past s)
    (step : Step (provisionRules ι provisioner asked) s (.dropped i) t)
    (unreleased : ¬Releases s (.dropped i)) :
    ∃ lid, (t.world.inflight lid).isSome = true ∧ ∀ j, ¬Leads t j lid := by
  obtain ⟨armed, busy⟩ := Classical.not_imp.mp unreleased
  obtain ⟨lid, leads⟩ := ne_none_iff_exists'.mp armed
  cases step with
  | drop _ _ next _ live left =>
    obtain ⟨entries, guards⟩ := left.stranded armed fun free => busy (free.imp_right
      fun ⟨waits, granted⟩ => ⟨by subst waits; exact ⟨next, live⟩, granted⟩)
    refine ⟨lid, by rw [entries]; exact (flight.flying.entry lid).mpr ⟨i, leads⟩, ?_⟩
    rintro j ⟨_, still⟩
    rw [guards, update_apply] at still
    split at still
    next => cases still
    next other => exact other (flight.flying.alone j i lid still leads)

/-- **Single flight**: in every interleaving of any number of calls in which each
    leader that is dropped finds the lock free, a key without a live leader is not in
    flight, who waits for a notice has it or waits for a live leader, and if nothing is
    dropped and nothing fails, each key is generated at most once, the generations that
    are not answered yet counted. A leader that is dropped while another call has the
    lock leaves an entry without a leader. -/
theorem single_flight (provisioner : LazyProvisioner) (asked : FlatAttrs → Prop) (store : KeyStore)
    (labels : List (ProvisionLabel ι)) (s : ProvisionSystem ι)
    (steps : Steps (fun s label t => Step (provisionRules ι provisioner asked) s label t ∧
      Releases s label) ⟨.initial store, fun _ => .idle⟩ labels s) :
    (∀ lid, (∀ i, ¬Leads s i lid) → s.world.inflight lid = none) ∧
    (∀ i channel next, s.threads i = .live (.call (.recv channel) next) →
      (∃ notice, s.world.notices channel = some notice) ∨
        ∃ j lid, Leads s j lid ∧ s.world.inflight lid = some channel) ∧
    ((∀ label ∈ labels, Faultless label) → ∀ lid, generations lid labels ≤ 1 ∧
      ∀ i, Generating s i lid → generations lid labels = 0 ∧ ∀ j, Generating s j lid → j = i) ∧
    (∀ i t, Step (provisionRules ι provisioner asked) s (.dropped i) t → ¬Releases s (.dropped i) →
      ∃ lid, (t.world.inflight lid).isSome = true ∧ ∀ j, ¬Leads t j lid) := by
  have every (p : ProvisionProg) (starts : (provisionRules ι provisioner asked).starts p) :
      Obeys Leading (fun later _ => leadStage later = none) [] p :=
    (started_obeys p starts).weaken fun _ _ allowed => allowed.2
  have initially : Flight [] (⟨.initial store, fun _ => .idle⟩ : ProvisionSystem ι) ∧
      ((∀ label ∈ ([] : List (ProvisionLabel ι)), Faultless label) →
        Once [] (⟨.initial store, fun _ => .idle⟩ : ProvisionSystem ι)) := by
    refine ⟨⟨⟨by simp [ProvisionWorld.initial], nofun⟩, fun _ => rfl, nofun⟩,
      fun _ => ⟨nofun, ?_, nofun, nofun⟩⟩
    exact fun _ => Nat.zero_le 1
  obtain ⟨following, flight, once⟩ := steps_guided_of (fun _ _ _ step => step.1) every
    (P := fun past s => Flight past s ∧ ((∀ label ∈ past, Faultless label) → Once past s))
    (fun past s label t step permitted following holds => by
      refine ⟨holds.1.step following step.1 step.2 permitted, fun faultless => ?_⟩
      have before : ∀ label ∈ past, Faultless label := fun label member =>
        faultless label (mem_append_left _ member)
      exact (holds.2 before).step holds.1 following step.1 (faultless label (by simp)) permitted)
    steps (fun _ => rfl) initially
  refine ⟨fun lid leaderless => ?_, fun i channel _ waits => ?_, fun faultless lid => ?_,
    fun i t step unreleased => flight.stranded step unreleased⟩
  · rw [← not_isSome_iff_eq_none]
    intro present
    obtain ⟨i, armed⟩ := (flight.flying.entry lid).mp present
    exact leaderless i (flight.leads following armed)
  · obtain ⟨lid, entered⟩ := (following.live i _ waits).1
    rcases flight.told i lid channel (mem_own.mp entered) with known | unsent
    · exact .inl known
    · obtain ⟨j, armed⟩ := (flight.flying.entry lid).mp (by rw [unsent]; rfl)
      exact .inr ⟨j, lid, flight.leads following armed, unsent⟩
  · refine ⟨(once faultless).once lid, ?_⟩
    have missing (i : ι) (generating : Generating s i lid) :
        leadStage (own i labels) = some (lid, .missing) := by
      obtain ⟨_, _, _, waits⟩ := generating
      exact (following.live i _ waits).1
    intro i generating
    refine ⟨(once faultless).fresh i lid (missing i generating), fun j also => ?_⟩
    exact (once faultless).alone flight following (missing j also) (missing i generating)

end

/-! ### A leader dropped under contention -/

attribute [local instance] asciiNormalization truncatingHash

def tenantAttrs : FlatAttrs := .ofList [("t", "a")]

/-- The calls of a tenant whose key is not there. -/
abbrev tenantCalls : Rules (ProvisionWorld Nat) Nat ProvisionCall ProvisionCall.Reply
    (Except KeyRackError ProvisionResult) KeyStore :=
  provisionRules Nat tenantProvisioner (tenantAttrs = ·)

/-- The key is not there, and the lock goes to whoever asked first. -/
def tenantReply (w : ProvisionWorld Nat) (i : Nat) : (c : ProvisionCall) →
    Option {x : c.Reply × ProvisionWorld Nat // c.Answers w i x.1 x.2}
  | .getKey lid => match absent : w.store lid with
    | none => some ⟨(_, _), .get lid _ (.missing absent)⟩
    | some _ => none
  | .requestLock => some ⟨(_, _), .requestLock⟩
  | .awaitLock =>
    if held : w.lock.holder = some i then some ⟨(_, _), .awaitLock held⟩ else none
  | .enter lid => some ⟨(_, _), .enter lid⟩
  | _ => none

def tenantPlayer : Player tenantCalls Unit Unit where
  program _ := (tenantProvisioner.resolveAndProvision tenantAttrs).run
  starts _ := ⟨tenantAttrs, rfl, rfl⟩
  answer w i _ c := tenantReply w i c
  drop _ _
    | .getKey lid => some ⟨_, .get lid⟩
    | _ => none

/-- Call 0 leads. -/
def leading : List (Move Nat Unit Unit KeyStore) := .start 0 () :: replicate 4 (.advance 0 ())

open Move in
/-- Call 1 takes the lock to look at the map while call 0 is dropped. -/
def stranding : List (Move Nat Unit Unit KeyStore) :=
  leading ++ [start 1 (), advance 1 (), advance 1 (), Move.drop 0, advance 1 (), advance 1 ()]

/-- The guard of call 0 is gone, and nobody else ever had one. -/
def unarmed : Nat → Option Lid := update (update (fun _ => none) 0 (some tenantLid)) 0 none

theorem not_leads (guards : s.world.guards = unarmed) (i : Nat) : ¬Leads s i tenantLid := by
  rintro ⟨_, armed⟩
  simp [guards, unarmed] at armed

theorem leading_plays : ∃ played next,
    tenantPlayer.plays ⟨.initial fun _ => none, fun _ => .idle⟩ leading = some played ∧
    played.1.1 = [.started 0, .called 0 ⟨.getKey tenantLid, .error (.keyNotFound tenantLid)⟩,
      .called 0 ⟨.requestLock, ()⟩, .called 0 ⟨.awaitLock, ()⟩,
      .called 0 ⟨.enter tenantLid, .leader⟩] ∧
    played.1.2.threads 0 = .live (.call (.getKey tenantLid) next) ∧
    played.1.2.world.lock.holder = none ∧ (played.1.2.world.dropGuard 0).guards = unarmed :=
  ⟨_, _, rfl, rfl, rfl, rfl, rfl⟩

theorem stranding_plays : ∃ played next,
    tenantPlayer.plays ⟨.initial fun _ => none, fun _ => .idle⟩ stranding = some played ∧
    played.1.2.world.guards = unarmed ∧ played.1.2.world.inflight tenantLid = some 0 ∧
    played.1.2.threads 1 = .live (.call (.recv 0) next) ∧ played.1.2.world.notices 0 = none :=
  ⟨_, _, rfl, rfl, rfl, rfl, rfl⟩

/-- Call 1 takes the lock to look at the map while call 0, which leads, is dropped:
    the guard of call 0 does not get the lock, its entry stays, and call 1 waits for a
    notice that nobody will send. -/
theorem dropped_leader_strands_waiter : ∃ labels s channel next,
    Steps (Step tenantCalls) ⟨.initial fun _ => none, fun _ => .idle⟩ labels s ∧
    (∀ i, ¬Leads s i tenantLid) ∧ s.world.inflight tenantLid = some channel ∧
    s.threads 1 = .live (.call (.recv channel) next) ∧ s.world.notices channel = none := by
  obtain ⟨played, next, -, guards, entry, waits, unsent⟩ := stranding_plays
  exact ⟨_, _, 0, next, played.2, not_leads guards, entry, waits, unsent⟩

/-- Dropped while nobody looks at the map, a leader takes its entry with it. -/
theorem single_flight_dropped : ∃ labels s,
    Steps (fun s label t => Step tenantCalls s label t ∧ Releases s label)
      ⟨.initial fun _ => none, fun _ => .idle⟩ labels s ∧ .dropped 0 ∈ labels ∧
    s.world.inflight tenantLid = none := by
  obtain ⟨played, next, -, labels, live, free, guards⟩ := leading_plays
  have left : tenantCalls.drops played.1.2.world 0 (.getKey tenantLid)
      (played.1.2.world.dropGuard 0) := .get tenantLid
  have alone : Steps (fun s label t => Step tenantCalls s label t ∧ Releases s label) _ _ _ :=
    (played.2.restrict (Q := fun label => ∀ i, label ≠ .dropped i) (by simp [labels])).imp
      fun s label t step => ⟨step.1, by
        cases label with
        | dropped i => exact absurd rfl (step.2 i)
        | _ => trivial⟩
  have steps := alone.append
    (.cons ⟨.drop _ 0 _ next _ live left, fun _ => .inl free⟩ (.nil _))
  exact ⟨_, _, steps, by simp,
    (single_flight tenantProvisioner _ _ _ _ steps).1 tenantLid (not_leads guards)⟩

end KeyRack
