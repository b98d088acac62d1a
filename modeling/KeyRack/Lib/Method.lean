import KeyRack.Lib.Process

/-!
# Methods that call out

A method reads and writes its receiver, makes calls and may fail; a failure keeps what
was written before it. The rules follow a method from its first statement to its ends:
what holds at every end is said of the calls made, the result and the receiver.
-/
namespace Process

variable {Call : Type} {Reply : Call → Type} {ε σ α β : Type}

abbrev Method (Call : Type) (Reply : Call → Type) (ε σ α : Type) : Type :=
  ExceptT ε (StateT σ (Prog Call Reply)) α

namespace Method

def ask (c : Call) : Method Call Reply ε σ (Reply c) :=
  ExceptT.lift (StateT.lift (Process.ask c))

/-- A check that does not touch the receiver. -/
def check (x : Except ε α) : Method Call Reply ε σ α := ExceptT.mk (pure x)

end Method

/-- Every call of a run from this receiver is allowed, and every end is as ensured. -/
def Holds (allowed : List (Event Call Reply) → Call → Prop) (past : List (Event Call Reply))
    (s : σ) (ensures : List (Event Call Reply) → Except ε α → σ → Prop)
    (x : Method Call Reply ε σ α) : Prop :=
  Obeys allowed (fun later out => ensures later out.1 out.2) past (x.run.run s)

section
variable {allowed : List (Event Call Reply) → Call → Prop} {past : List (Event Call Reply)} {s : σ}
  {ensures : List (Event Call Reply) → Except ε α → σ → Prop} {x : Method Call Reply ε σ β}
  {f : β → Method Call Reply ε σ α} {y : Method Call Reply ε σ α}

theorem Holds.mono (holds : Holds allowed past s ensures y)
    (imp : ∀ later r t, ensures later r t → weaker later r t) : Holds allowed past s weaker y :=
  Obeys.mono holds fun later out => imp later out.1 out.2

/-- A part of the method, and then the rest of it where the part succeeds. -/
theorem Holds.bind (first : Holds allowed past s between x)
    (failed : ∀ later e t, between later (.error e) t → ensures later (.error e) t)
    (rest : ∀ later b t, between later (.ok b) t → Holds allowed later t ensures (f b)) :
    Holds allowed past s ensures (x >>= f) := by
  change Obeys allowed _ past (x.run.run s >>= fun out => (ExceptT.bindCont f out.1).run out.2)
  apply obeys_bind.mpr
  apply Obeys.mono first
  rintro later ⟨e | b, t⟩ holds
  · exact failed later e t holds
  · exact rest later b t holds

theorem holds_get_then {f : σ → Method Call Reply ε σ α}
    (rest : Holds allowed past s ensures (f s)) : Holds allowed past s ensures (get >>= f) := rest

theorem holds_set_then {f : PUnit → Method Call Reply ε σ α}
    (rest : Holds allowed past t ensures (f ⟨⟩)) : Holds allowed past s ensures (set t >>= f) :=
  rest

theorem holds_ask_then {f : Reply c → Method Call Reply ε σ α}
    (permitted : allowed past c) (rest : ∀ r, Holds allowed (past ++ [⟨c, r⟩]) s ensures (f r)) :
    Holds allowed past s ensures (Method.ask c >>= f) := ⟨permitted, rest⟩

theorem holds_check {x : Except ε α} :
    Holds allowed past s ensures (Method.check x) ↔ ensures past x s := Iff.rfl

theorem holds_check_then {x : Except ε β} (failed : ∀ e, x = .error e → ensures past (.error e) s)
    (rest : ∀ b, x = .ok b → Holds allowed past s ensures (f b)) :
    Holds allowed past s ensures (Method.check x >>= f) := by
  cases x with
  | error e => exact failed e rfl
  | ok b => exact rest b rfl

/-- A method ran to an end. -/
def Ran (x : Method Call Reply ε σ α) (s : σ) (events : List (Event Call Reply))
    (r : Except ε α) (t : σ) : Prop := Execution (x.run.run s) events (r, t)

variable {events : List (Event Call Reply)} {r : Except ε α} {t : σ}

theorem Holds.ran (holds : Holds allowed [] s ensures y) (ran : Ran y s events r t) :
    ensures events r t := by
  have ended := Obeys.execution holds ran
  exact ended

/-- Every call that was made was allowed. -/
theorem Holds.ran_allowed (holds : Holds allowed [] s ensures y) (ran : Ran y s events r t) :
    ∀ event ∈ events, ∃ before, allowed before event.1 := by
  have ended := (Obeys.events holds).execution ran
  intro event member
  rcases ended.2 event member with before | permitted
  · cases before
  · exact permitted

end

/-! ### Runs that can be evaluated -/

/-- Run a program on these answers; a call without an answer stops it. -/
def Prog.replay (answer : (c : Call) → Option (Reply c)) :
    Prog Call Reply α → Option (List (Event Call Reply) × α)
  | .done a => some ([], a)
  | .call c next => do
    let r ← answer c
    let (events, a) ← (next r).replay answer
    return (⟨c, r⟩ :: events, a)

theorem Prog.replay_execution (replayed : p.replay answer = some (events, a)) :
    Execution p events a := by
  induction p generalizing events with
  | done =>
    cases replayed
    exact .done a
  | call c next ih =>
    simp only [Prog.replay, Option.bind_eq_bind, Option.bind_eq_some_iff] at replayed
    obtain ⟨r, _, ⟨later, _⟩, rest, same⟩ := replayed
    cases same
    exact .call c next r later _ (ih r rest)

end Process
