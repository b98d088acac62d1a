import KeyRack.Lib.Trace

/-!
# Concurrent programs over a shared world

A program is a tree of calls: each reply of the world decides how it goes on. A
system runs any number of programs, one call at a time, in any order; a program
may be dropped while it waits for a reply. What a program does is said in terms
of its own calls and replies, what the world does in terms of single calls, and
the two are put together along the history of the system.
-/
namespace Process

open Trace Function List

/-! ### Programs -/

section
variable {Call : Type} {Reply : Call → Type} {α β ε : Type}

inductive Prog (Call : Type) (Reply : Call → Type) (α : Type) where
  | done (result : α)
  | call (c : Call) (next : Reply c → Prog Call Reply α)

def Prog.bind : Prog Call Reply α → (α → Prog Call Reply β) → Prog Call Reply β
  | .done a, f => f a
  | .call c next, f => .call c fun r => (next r).bind f

instance : Monad (Prog Call Reply) where
  pure := .done
  bind := .bind

/-- Make one call and return its reply. -/
def ask (c : Call) : Prog Call Reply (Reply c) := .call c .done

/-- A call with its reply. -/
abbrev Event (Call : Type) (Reply : Call → Type) : Type := (c : Call) × Reply c

variable {allowed : List (Event Call Reply) → Call → Prop}

/-- Every call is allowed by the events before it, and the result by all of them. -/
def Obeys (allowed : List (Event Call Reply) → Call → Prop) :
    (List (Event Call Reply) → α → Prop) → List (Event Call Reply) → Prog Call Reply α → Prop
  | ensures, past, .done a => ensures past a
  | ensures, past, .call c next =>
    allowed past c ∧ ∀ r, Obeys allowed ensures (past ++ [⟨c, r⟩]) (next r)

variable {ensures : List (Event Call Reply) → α → Prop} {past : List (Event Call Reply)}

@[simp] theorem obeys_pure :
    Obeys allowed ensures past (pure a : Prog Call Reply α) ↔ ensures past a := Iff.rfl

variable {c : Call}

theorem obeys_ask {ensures : List (Event Call Reply) → Reply c → Prop} :
    Obeys allowed ensures past (ask c) ↔
      allowed past c ∧ ∀ r, ensures (past ++ [⟨c, r⟩]) r := Iff.rfl

variable {p : Prog Call Reply α} {q : Prog Call Reply β}

theorem obeys_bind :
    Obeys allowed ensures past (q >>= f) ↔
      Obeys allowed (fun past b => Obeys allowed ensures past (f b)) past q := by
  induction q generalizing past with
  | done => exact Iff.rfl
  | call _ _ ih => exact and_congr_right fun _ => forall_congr' fun r => ih r

theorem Obeys.mono
    (obeys : Obeys allowed ensures past p) (imp : ∀ past a, ensures past a → weaker past a) :
    Obeys allowed weaker past p := by
  induction p generalizing past with
  | done a => exact imp past a obeys
  | call _ _ ih => exact ⟨obeys.1, fun r => ih r (obeys.2 r)⟩

theorem Obeys.weaken
    (obeys : Obeys allowed ensures past p) (imp : ∀ past c, allowed past c → wider past c) :
    Obeys wider ensures past p := by
  induction p generalizing past with
  | done => exact obeys
  | call c _ ih => exact ⟨imp past c obeys.1, fun r => ih r (obeys.2 r)⟩

/-- Every new event is of a call that was allowed. -/
theorem Obeys.events (obeys : Obeys allowed ensures past p) :
    Obeys allowed (fun later a => ensures later a ∧
      ∀ event ∈ later, event ∈ past ∨ ∃ before, allowed before event.1) past p := by
  induction p generalizing past with
  | done => exact ⟨obeys, fun _ member => Or.inl member⟩
  | call _ _ ih =>
    refine ⟨obeys.1, fun r => (ih r (obeys.2 r)).mono fun later a after => ⟨after.1, ?_⟩⟩
    intro event member
    rcases after.2 event member with before | new
    · rcases mem_append.mp before with old | now
      · exact Or.inl old
      · rw [mem_singleton.mp now]
        exact Or.inr ⟨past, obeys.1⟩
    · exact Or.inr new

/-- The events of a program come after those before it. -/
theorem Obeys.extends (obeys : Obeys allowed ensures past p) :
    Obeys allowed (fun later a => past <+: later ∧ ensures later a) past p := by
  induction p generalizing past with
  | done => exact ⟨prefix_refl past, obeys⟩
  | call _ _ ih =>
    refine ⟨obeys.1, fun r => (ih r (obeys.2 r)).mono fun later a after => ?_⟩
    exact ⟨(prefix_append past _).trans after.1, after.2⟩

/-- A program ran to its end with these events and this result. -/
inductive Execution : Prog Call Reply α → List (Event Call Reply) → α → Prop where
  | done (a : α) : Execution (.done a) [] a
  | call (c : Call) (next : Reply c → Prog Call Reply α) (r : Reply c)
      (events : List (Event Call Reply)) (a : α) (rest : Execution (next r) events a) :
      Execution (.call c next) (⟨c, r⟩ :: events) a

theorem Obeys.execution {events : List (Event Call Reply)}
    (obeys : Obeys allowed ensures past p) (execution : Execution p events a) :
    ensures (past ++ events) a := by
  induction execution generalizing past with
  | done =>
    rw [append_nil]
    exact obeys
  | call _ _ r _ _ _ ih =>
    have rest := ih (obeys.2 r)
    rwa [append_assoc] at rest

/-- If every call can be answered, a program has an execution. -/
theorem exists_execution [answers : ∀ c, Nonempty (Reply c)] (p : Prog Call Reply α) :
    ∃ events a, Execution p events a := by
  induction p with
  | done a => exact ⟨[], a, .done a⟩
  | call c next ih =>
    obtain ⟨r⟩ := answers c
    obtain ⟨events, a, rest⟩ := ih r
    exact ⟨_, a, .call c next r events a rest⟩

/-- The result of a program that has ended. -/
def Prog.result? : Prog Call Reply α → Option α
  | .done a => some a
  | .call _ _ => none

theorem Prog.result?_eq_some : p.result? = some a ↔ p = .done a := by
  cases p with
  | done => simp [Prog.result?]
  | call => simp [Prog.result?]

/-! ### Programs that may fail -/

variable {ensures : List (Event Call Reply) → Except ε α → Prop}

@[simp] theorem obeys_throw :
    Obeys allowed ensures past (throw e : ExceptT ε (Prog Call Reply) α).run ↔
      ensures past (.error e) := Iff.rfl

variable {x : ExceptT ε (Prog Call Reply) β} {f : β → ExceptT ε (Prog Call Reply) α}

/-- The rest of the program runs on success only. -/
theorem obeys_try :
    Obeys allowed ensures past (x >>= f).run ↔
      Obeys allowed (fun past result => match result with
        | .ok b => Obeys allowed ensures past (f b).run
        | .error e => ensures past (.error e)) past x.run := by
  change Obeys allowed ensures past (x.run >>= ExceptT.bindCont f) ↔ _
  rw [obeys_bind]
  constructor
  · intro obeys
    refine obeys.mono fun past result after => ?_
    cases result <;> exact after
  · intro obeys
    refine obeys.mono fun past result after => ?_
    cases result <;> exact after

/-- A pure check whose result is the program's. -/
theorem obeys_check {x : Except ε α} :
    Obeys allowed ensures past (liftM x : ExceptT ε (Prog Call Reply) α).run ↔ ensures past x :=
  Iff.rfl

/-- A pure check that ends the program when it fails. -/
theorem obeys_check_then {x : Except ε β} (failed : ∀ e, x = .error e → ensures past (.error e))
    (passed : ∀ b, x = .ok b → Obeys allowed ensures past (f b).run) :
    Obeys allowed ensures past ((liftM x : ExceptT ε (Prog Call Reply) β) >>= f).run := by
  cases x with
  | error e => exact failed e rfl
  | ok b => exact passed b rfl

/-- Make one call and look at its reply, whatever it is. -/
def observe (c : Call) : ExceptT ε (Prog Call Reply) (Reply c) := ExceptT.lift (ask c)

theorem obeys_observe_then {f : Reply c → ExceptT ε (Prog Call Reply) α}
    (permitted : allowed past c) (rest : ∀ r, Obeys allowed ensures (past ++ [⟨c, r⟩]) (f r).run) :
    Obeys allowed ensures past ((observe c : ExceptT ε (Prog Call Reply) (Reply c)) >>= f).run :=
  ⟨permitted, rest⟩

/-- A part of the program whose outcome is looked at, whatever it is. -/
theorem obeys_lift_then
    (part : Obeys allowed (fun past b => Obeys allowed ensures past (f b).run) past q) :
    Obeys allowed ensures past
      ((ExceptT.lift q : ExceptT ε (Prog Call Reply) β) >>= f).run := by
  change Obeys allowed ensures past ((q >>= fun b => pure (Except.ok b)) >>= ExceptT.bindCont f)
  rw [obeys_bind, obeys_bind]
  exact part

/-- Make one call and go on with its value, or fail with its error. -/
def perform {Value : Call → Type} (c : Call) :
    ExceptT ε (Prog Call fun c => Except ε (Value c)) (Value c) := ExceptT.mk (ask c)

section
variable {Value : Call → Type}
  {allowed : List (Event Call fun c => Except ε (Value c)) → Call → Prop}
  {past : List (Event Call fun c => Except ε (Value c))}
  {ensures : List (Event Call fun c => Except ε (Value c)) → Except ε α → Prop}

theorem obeys_perform_then {f : Value c → ExceptT ε (Prog Call fun c => Except ε (Value c)) α}
    (permitted : allowed past c) (failed : ∀ e, ensures (past ++ [⟨c, .error e⟩]) (.error e))
    (rest : ∀ v, Obeys allowed ensures (past ++ [⟨c, .ok v⟩]) (f v).run) :
    Obeys allowed ensures past (perform c >>= f).run := by
  refine ⟨permitted, fun r => ?_⟩
  cases r with
  | error e => exact failed e
  | ok v => exact rest v

end

/-! ### What holds when a program succeeds -/

/-- The program makes allowed calls only, and a value it returns is as ensured. -/
def Returns (allowed : List (Event Call Reply) → Call → Prop) (past : List (Event Call Reply))
    (ensures : List (Event Call Reply) → α → Prop) (x : ExceptT ε (Prog Call Reply) α) : Prop :=
  Obeys allowed (fun later result => past <+: later ∧
    ∀ value, result = .ok value → ensures later value) past x.run

section
variable {ensures : List (Event Call Reply) → α → Prop}

theorem returns_pure (holds : ensures past a) :
    Returns allowed past ensures (pure a : ExceptT ε (Prog Call Reply) α) := by
  apply And.intro (prefix_refl past)
  rintro _ ⟨⟩
  exact holds

theorem returns_throw : Returns allowed past ensures (throw e : ExceptT ε (Prog Call Reply) α) :=
  obeys_throw.mpr ⟨prefix_refl past, nofun⟩

variable {between : List (Event Call Reply) → β → Prop}

theorem Returns.bind (first : Returns allowed past between x)
    (rest : ∀ later b, past <+: later → between later b → Returns allowed later ensures (f b)) :
    Returns allowed past ensures (x >>= f) := by
  apply obeys_try.mpr
  apply first.mono
  rintro later (e | b) ⟨grows, holds⟩
  · exact ⟨grows, nofun⟩
  · apply (rest later b grows (holds b rfl)).mono
    rintro _ _ ⟨longer, ensured⟩
    exact ⟨grows.trans longer, ensured⟩

theorem returns_check {x : Except ε α} (passed : ∀ a, x = .ok a → ensures past a) :
    Returns allowed past ensures (liftM x : ExceptT ε (Prog Call Reply) α) :=
  obeys_check.mpr ⟨prefix_refl past, passed⟩

theorem returns_check_then {x : Except ε β}
    (passed : ∀ b, x = .ok b → Returns allowed past ensures (f b)) :
    Returns allowed past ensures ((liftM x : ExceptT ε (Prog Call Reply) β) >>= f) := by
  apply obeys_check_then _ passed
  intro e _
  exact ⟨prefix_refl past, nofun⟩

theorem returns_observe_then {f : Reply c → ExceptT ε (Prog Call Reply) α}
    (permitted : allowed past c) (rest : ∀ r, Returns allowed (past ++ [⟨c, r⟩]) ensures (f r)) :
    Returns allowed past ensures
      ((observe c : ExceptT ε (Prog Call Reply) (Reply c)) >>= f) := by
  apply obeys_observe_then permitted
  intro r
  apply Obeys.mono (rest r)
  rintro _ _ ⟨longer, holds⟩
  exact ⟨(prefix_append past _).trans longer, holds⟩

theorem returns_observe {ensures : List (Event Call Reply) → Reply c → Prop}
    (permitted : allowed past c) (ensured : ∀ r, ensures (past ++ [⟨c, r⟩]) r) :
    Returns allowed past ensures (observe c : ExceptT ε (Prog Call Reply) (Reply c)) := by
  apply And.intro permitted
  intro r
  apply And.intro (prefix_append past _)
  rintro _ ⟨⟩
  exact ensured r

theorem returns_lift_then (part : Obeys allowed between past q)
    (rest : ∀ later b, past <+: later → between later b → Returns allowed later ensures (f b)) :
    Returns allowed past ensures ((ExceptT.lift q : ExceptT ε (Prog Call Reply) β) >>= f) := by
  apply obeys_lift_then
  apply part.extends.mono
  rintro later b ⟨grows, holds⟩
  apply Obeys.mono (rest later b grows holds)
  rintro _ _ ⟨longer, ensured⟩
  exact ⟨grows.trans longer, ensured⟩

end

/-! ### Programs over a wider interface -/

section
variable {Own : Type} {OwnReply : Own → Type} {f : Own → Call} {g : ∀ c, Reply (f c) → OwnReply c}

/-- The same program, its calls seen as calls of a wider interface. -/
def Prog.embed (f : Own → Call) (g : ∀ c, Reply (f c) → OwnReply c) :
    Prog Own OwnReply α → Prog Call Reply α
  | .done a => .done a
  | .call c next => .call (f c) fun r => (next (g c r)).embed f g

/-- A program of which nothing is known makes its calls where they are permitted. -/
theorem obeys_embed {P : List (Event Call Reply) → Prop}
    (permitted : ∀ past c, P past → allowed past (f c))
    (kept : ∀ past c r, P past → P (past ++ [⟨f c, r⟩])) (p : Prog Own OwnReply α)
    (holds : P past) : Obeys allowed (fun later _ => P later) past (p.embed f g) := by
  induction p generalizing past with
  | done => exact holds
  | call c _ ih =>
    apply And.intro (permitted past c holds)
    intro r
    apply ih
    exact kept past c r holds

variable {ownAllowed : List (Event Own OwnReply) → Own → Prop}
  {ownEnsures : List (Event Own OwnReply) → α → Prop}

/-- What a program obeys among its own events, it obeys among the wider ones. -/
theorem Obeys.embed {R : List (Event Own OwnReply) → List (Event Call Reply) → Prop}
    (permitted : ∀ ownPast past c, R ownPast past → ownAllowed ownPast c → allowed past (f c))
    (kept : ∀ ownPast past c r, R ownPast past → R (ownPast ++ [⟨c, g c r⟩]) (past ++ [⟨f c, r⟩]))
    {p : Prog Own OwnReply α}
    (obeys : Obeys ownAllowed ownEnsures ownPast p) (related : R ownPast past) :
    Obeys allowed (fun later a => ∃ ownLater, R ownLater later ∧ ownEnsures ownLater a) past
      (p.embed f g) := by
  induction p generalizing past ownPast with
  | done => exact ⟨ownPast, related, obeys⟩
  | call c _ ih =>
    apply And.intro (permitted ownPast past c related obeys.1)
    intro r
    apply ih (g c r) (obeys.2 (g c r))
    exact kept ownPast past c r related

/-- The events of a part are among the wider ones. -/
def Recorded (f : Own → Call) (h : ∀ c, OwnReply c → Reply (f c))
    (ownPast : List (Event Own OwnReply)) (past : List (Event Call Reply)) : Prop :=
  ∀ event ∈ ownPast, ⟨f event.1, h event.1 event.2⟩ ∈ past

section
variable {h : ∀ c, OwnReply c → Reply (f c)} {ownPast : List (Event Own OwnReply)}

theorem recorded_nil : Recorded f h [] past := by
  nofun

theorem recorded_singleton
    (member : ⟨f event.1, h event.1 event.2⟩ ∈ past) : Recorded f h [event] past := by
  intro other single
  cases mem_singleton.mp single
  exact member

theorem Recorded.extend (recorded : Recorded f h ownPast past)
    (grows : past <+: later) : Recorded f h ownPast later := by
  intro event member
  exact grows.subset (recorded event member)

theorem Recorded.append (recorded : Recorded f h ownPast past) (c : Own) (r : OwnReply c) :
    Recorded f h (ownPast ++ [⟨c, r⟩]) (past ++ [⟨f c, h c r⟩]) := by
  intro event member
  rcases mem_append.mp member with old | new
  · exact mem_append_left _ (recorded event old)
  · cases mem_singleton.mp new
    exact mem_concat_self

theorem Obeys.embed_recorded {p : Prog Own OwnReply α}
    (obeys : Obeys ownAllowed ownEnsures ownPast p) (inverse : ∀ c r, h c (g c r) = r)
    (permitted : ∀ ownPast past c, Recorded f h ownPast past → ownAllowed ownPast c →
      allowed past (f c))
    (recorded : Recorded f h ownPast past) :
    Obeys allowed (fun later a => ∃ ownLater, Recorded f h ownLater later ∧ ownEnsures ownLater a)
      past (p.embed f g) := by
  apply obeys.embed permitted _ recorded
  intro ownPast past c r related
  have appended := related.append c (g c r)
  rwa [inverse] at appended

end

end

/-! ### Programs whose calls are answered by a function -/

/-- The result of a program whose calls are answered by a function. -/
def Prog.resultWith (answer : (c : Call) → Reply c) : Prog Call Reply α → α
  | .done a => a
  | .call c next => (next (answer c)).resultWith answer

/-- The calls that such a program makes. -/
def Prog.callsWith (answer : (c : Call) → Reply c) : Prog Call Reply α → List Call
  | .done _ => []
  | .call c next => c :: (next (answer c)).callsWith answer

section
variable (answer : (c : Call) → Reply c)

theorem resultWith_bind (p : Prog Call Reply β) (f : β → Prog Call Reply α) :
    (p >>= f).resultWith answer = (f (p.resultWith answer)).resultWith answer := by
  induction p with
  | done => rfl
  | call c _ ih => exact ih (answer c)

theorem callsWith_bind (p : Prog Call Reply β) (f : β → Prog Call Reply α) :
    (p >>= f).callsWith answer =
      p.callsWith answer ++ (f (p.resultWith answer)).callsWith answer := by
  induction p with
  | done => rfl
  | call c _ ih => exact congrArg (c :: ·) (ih (answer c))

section
variable {x : Except ε α} {a : α} {c : Call}

@[simp] theorem resultWith_check :
    (liftM x : ExceptT ε (Prog Call Reply) α).run.resultWith answer = x := rfl

@[simp] theorem callsWith_check :
    (liftM x : ExceptT ε (Prog Call Reply) α).run.callsWith answer = [] := rfl

@[simp] theorem resultWith_pure : (pure a : Prog Call Reply α).resultWith answer = a := rfl

@[simp] theorem callsWith_pure : (pure a : Prog Call Reply α).callsWith answer = [] := rfl

@[simp] theorem resultWith_observe :
    (observe c : ExceptT ε (Prog Call Reply) (Reply c)).run.resultWith answer =
      .ok (answer c) := rfl

@[simp] theorem callsWith_observe :
    (observe c : ExceptT ε (Prog Call Reply) (Reply c)).run.callsWith answer = [c] := rfl

end

theorem resultWith_try (x : ExceptT ε (Prog Call Reply) β) (f : β → ExceptT ε (Prog Call Reply) α) :
    (x >>= f).run.resultWith answer = match x.run.resultWith answer with
      | .ok b => (f b).run.resultWith answer
      | .error e => .error e := by
  change (x.run >>= ExceptT.bindCont f).resultWith answer = _
  rw [resultWith_bind]
  cases x.run.resultWith answer <;> rfl

theorem callsWith_try (x : ExceptT ε (Prog Call Reply) β) (f : β → ExceptT ε (Prog Call Reply) α) :
    (x >>= f).run.callsWith answer = x.run.callsWith answer ++
      match x.run.resultWith answer with
      | .ok b => (f b).run.callsWith answer
      | .error _ => [] := by
  change (x.run >>= ExceptT.bindCont f).callsWith answer = _
  rw [callsWith_bind]
  cases x.run.resultWith answer <;> rfl

end

end

/-! ### Systems -/

inductive Thread (π : Type) where
  | idle
  | live (rest : π)
  | dropped

structure System (World ι : Type) (Call : Type) (Reply : Call → Type) (α : Type) where
  world : World
  threads : ι → Thread (Prog Call Reply α)

inductive Label (ι : Type) (Call : Type) (Reply : Call → Type) (η : Type) where
  | started (i : ι)
  | called (i : ι) (event : Event Call Reply)
  | dropped (i : ι)
  | environment (e : η)

/-- What may be started, how the world answers a call, what becomes of it when a
    program that waits at a call is dropped, and what else happens to it. -/
structure Rules (World ι : Type) (Call : Type) (Reply : Call → Type) (α η : Type) where
  starts : Prog Call Reply α → Prop
  answers : World → ι → (c : Call) → Reply c → World → Prop
  drops : World → ι → Call → World → Prop
  environment : World → η → World → Prop

variable {World ι Call α η : Type} {Reply : Call → Type} [DecidableEq ι]
  {rules : Rules World ι Call Reply α η}

inductive Step (rules : Rules World ι Call Reply α η) :
    System World ι Call Reply α → Label ι Call Reply η → System World ι Call Reply α → Prop where
  | start (s : System World ι Call Reply α) (i : ι) (p : Prog Call Reply α)
      (idle : s.threads i = .idle) (startable : rules.starts p) :
      Step rules s (.started i) { s with threads := update s.threads i (.live p) }
  | call (s : System World ι Call Reply α) (i : ι) (c : Call)
      (next : Reply c → Prog Call Reply α) (r : Reply c) (world : World)
      (live : s.threads i = .live (.call c next)) (answered : rules.answers s.world i c r world) :
      Step rules s (.called i ⟨c, r⟩)
        { world, threads := update s.threads i (.live (next r)) }
  | drop (s : System World ι Call Reply α) (i : ι) (c : Call)
      (next : Reply c → Prog Call Reply α) (world : World)
      (live : s.threads i = .live (.call c next)) (left : rules.drops s.world i c world) :
      Step rules s (.dropped i) { world, threads := update s.threads i .dropped }
  | environment (s : System World ι Call Reply α) (e : η) (world : World)
      (changed : rules.environment s.world e world) : Step rules s (.environment e) { s with world }

/-- The events of one participant. -/
def own (i : ι) (labels : List (Label ι Call Reply η)) : List (Event Call Reply) :=
  labels.filterMap fun label => match label with
    | .called j event => if j = i then some event else none
    | _ => none

@[simp] theorem own_append (i : ι) (a b : List (Label ι Call Reply η)) :
    own i (a ++ b) = own i a ++ own i b := filterMap_append

theorem own_called_self (i : ι) (event : Event Call Reply) :
    own i [(.called i event : Label ι Call Reply η)] = [event] := by
  simp [own]

theorem own_called_ne (other : j ≠ i) (event : Event Call Reply) :
    own i [(.called j event : Label ι Call Reply η)] = [] := by
  simp [own, other]

variable {labels : List (Label ι Call Reply η)}

theorem mem_own : event ∈ own i labels ↔ .called i event ∈ labels := by
  simp only [own, mem_filterMap]
  constructor
  · rintro ⟨label, member, taken⟩
    cases label with
    | called j =>
      by_cases same : j = i
      · subst same
        simp only [if_true, Option.some.injEq] at taken
        exact taken ▸ member
      · simp [same] at taken
    | started | dropped | environment => cases taken
  · intro member
    exact ⟨_, member, by simp⟩

variable {allowed : List (Event Call Reply) → Call → Prop}
  {ensures : List (Event Call Reply) → α → Prop}

/-- What each participant's own history says about the rest of its program. -/
structure Following (allowed : List (Event Call Reply) → Call → Prop)
    (ensures : List (Event Call Reply) → α → Prop) (labels : List (Label ι Call Reply η))
    (s : System World ι Call Reply α) : Prop where
  idle : ∀ i, s.threads i = .idle → own i labels = []
  live : ∀ i p, s.threads i = .live p → Obeys allowed ensures (own i labels) p

/-- The call that a label stands for is allowed by its caller's own history. -/
def Label.Allowed (allowed : List (Event Call Reply) → Call → Prop)
    (past : List (Label ι Call Reply η)) : Label ι Call Reply η → Prop
  | .called i event => allowed (own i past) event.1
  | _ => True

variable {past : List (Label ι Call Reply η)} {label : Label ι Call Reply η}
  {s t : System World ι Call Reply α} {world : World} {i : ι}

/-- A step of one participant leaves the others' histories alone. -/
theorem Following.update
    (following : Following allowed ensures past s) (others : ∀ j, j ≠ i → own j [label] = [])
    (started : now ≠ .idle)
    (live : ∀ p, now = .live p → Obeys allowed ensures (own i (past ++ [label])) p) :
    Following allowed ensures (past ++ [label])
      { world, threads := update s.threads i now } := by
  constructor
  · intro j idle
    by_cases same : j = i
    · subst same
      exact absurd (update_self j now s.threads ▸ idle) started
    · simp only [update_of_ne same] at idle
      rw [own_append, others j same, following.idle j idle]
      rfl
  · intro j p running
    by_cases same : j = i
    · subst same
      exact live p (update_self j now s.threads ▸ running)
    · simp only [update_of_ne same] at running
      rw [own_append, others j same, append_nil]
      exact following.live j p running

theorem Step.following (every : ∀ p, rules.starts p → Obeys allowed ensures [] p)
    (step : Step rules s label t) (following : Following allowed ensures past s) :
    label.Allowed allowed past ∧ Following allowed ensures (past ++ [label]) t := by
  cases step with
  | start i p idle startable =>
    refine ⟨trivial, following.update (fun _ _ => rfl) (by simp) ?_⟩
    rintro q ⟨⟩
    rw [own_append, following.idle i idle]
    exact every p startable
  | call i _ _ r _ live =>
    obtain ⟨permitted, rest⟩ := following.live i _ live
    refine ⟨permitted, following.update (fun j other => own_called_ne (Ne.symm other) _)
      (by simp) ?_⟩
    rintro q ⟨⟩
    rw [own_append, own_called_self]
    exact rest r
  | drop =>
    refine ⟨trivial, following.update (fun _ _ => rfl) (by simp) ?_⟩
    rintro q ⟨⟩
  | environment =>
    refine ⟨trivial, fun j idle => ?_, fun j p running => ?_⟩
    · rw [own_append, following.idle j idle]
      rfl
    · rw [own_append]
      exact (append_nil _).symm ▸ following.live j p running

/-- A predicate on the history and the state, kept by every step whose call its
    caller's own history allows; here along the steps that some relation admits. -/
theorem steps_guided_of
    (sub : ∀ s label t, R s label t → Step rules s label t)
    {P : List (Label ι Call Reply η) → System World ι Call Reply α → Prop}
    (every : ∀ p, rules.starts p → Obeys allowed ensures [] p)
    (keeps : ∀ past s label t, R s label t → label.Allowed allowed past →
      Following allowed ensures past s → P past s → P (past ++ [label]) t)
    (steps : Steps R s labels t) (idle : ∀ i, s.threads i = .idle) (start : P [] s) :
    Following allowed ensures labels t ∧ P labels t := by
  have initial : Following allowed ensures ([] : List (Label ι Call Reply η)) s ∧ P [] s := by
    refine ⟨⟨fun _ _ => rfl, fun i p live => ?_⟩, start⟩
    rw [idle i] at live
    cases live
  refine steps.history (P := fun past s => Following allowed ensures past s ∧ P past s) ?_ initial
  rintro past s label t step ⟨following, holds⟩
  obtain ⟨permitted, next⟩ := (sub s label t step).following every following
  exact ⟨next, keeps past s label t step permitted following holds⟩

theorem steps_guided {P : List (Label ι Call Reply η) → System World ι Call Reply α → Prop}
    (every : ∀ p, rules.starts p → Obeys allowed ensures [] p)
    (keeps : ∀ past s label t, Step rules s label t → label.Allowed allowed past →
      Following allowed ensures past s → P past s → P (past ++ [label]) t)
    (steps : Steps (Step rules) s labels t) (idle : ∀ i, s.threads i = .idle) (start : P [] s) :
    Following allowed ensures labels t ∧ P labels t :=
  steps_guided_of (fun _ _ _ step => step) every keeps steps idle start

/-! ### Runs of one part alone -/

variable {world' : World}

theorem steps_environment (run : Steps rules.environment world events world')
    (threads : ι → Thread (Prog Call Reply α)) :
    Steps (Step rules) ⟨world, threads⟩ (events.map .environment) ⟨world', threads⟩ := by
  induction run with
  | nil => exact .nil _
  | cons first _ ih => exact .cons (.environment _ _ _ first) ih

variable {p : Prog Call Reply α} {threads : ι → Thread (Prog Call Reply α)}

theorem step_started (idle : threads i = .idle) (startable : rules.starts p) :
    Step rules ⟨world, threads⟩ (.started i) ⟨world, update threads i (.live p)⟩ :=
  .start ⟨world, threads⟩ i p idle startable

variable {c : Call}

theorem step_called {next : Reply c → Prog Call Reply α}
    (calls : p = .call c next) (answered : rules.answers world i c r world') :
    Step rules ⟨world, update threads i (.live p)⟩ (.called i ⟨c, r⟩)
      ⟨world', update threads i (.live (next r))⟩ := by
  subst calls
  have step := Step.call ⟨world, update threads i (.live (.call c next))⟩ i c next r world'
    (update_self i _ threads) answered
  simp only [update_idem] at step
  exact step

/-- The next calls of a program, on computed answers: the events, the world and what
    is left of the program. -/
def solo (answer : World → (c : Call) → Reply c × World) :
    Nat → World → Prog Call Reply α → List (Event Call Reply) × World × Prog Call Reply α
  | _, world, .done a => ([], world, .done a)
  | 0, world, .call c next => ([], world, .call c next)
  | n + 1, world, .call c next =>
    let (r, world') := answer world c
    let (events, last) := solo answer n world' (next r)
    (⟨c, r⟩ :: events, last)

variable {answer : World → (c : Call) → Reply c × World}

/-- One participant alone, in surroundings that answer as long as an invariant holds. -/
theorem steps_solo_of {P : World → Prop} (answers : ∀ world c, P world →
      rules.answers world i c (answer world c).1 (answer world c).2 ∧ P (answer world c).2)
    (n : Nat) (p : Prog Call Reply α) (threads : ι → Thread (Prog Call Reply α)) (start : P world) :
    Steps (Step rules) ⟨world, update threads i (.live p)⟩
      ((solo answer n world p).1.map fun event => .called i event)
      ⟨(solo answer n world p).2.1,
        update threads i (.live (solo answer n world p).2.2)⟩ := by
  induction p generalizing n world with
  | done =>
    rw [solo]
    exact .nil _
  | call c _ ih =>
    cases n with
    | zero => exact .nil _
    | succ n =>
      obtain ⟨answered, holds⟩ := answers world c start
      exact .cons (step_called rfl answered) (ih (answer world c).1 n holds)

theorem steps_solo
    (answers : ∀ world c, rules.answers world i c (answer world c).1 (answer world c).2) (n : Nat)
    (p : Prog Call Reply α) (threads : ι → Thread (Prog Call Reply α)) (world : World) :
    Steps (Step rules) ⟨world, update threads i (.live p)⟩
      ((solo answer n world p).1.map fun event => .called i event)
      ⟨(solo answer n world p).2.1, update threads i (.live (solo answer n world p).2.2)⟩ :=
  steps_solo_of (P := fun _ => True) (fun world c _ => ⟨answers world c, trivial⟩) n p threads
    trivial

-- a run is evaluated by the kernel, not unfolded in the middle of a proof
attribute [irreducible] solo

end Process
