import KeyRack.Lib.Process

/-!
# Schedules

A run of a system that is computed: a schedule says which participant starts or goes on and
what the environment does, and a player answers the calls in one of the ways that the rules
allow. What a schedule plays is a run.
-/
namespace Process

open Trace

/-- One move of a schedule. -/
inductive Move (ι π κ η : Type) where
  | start (i : ι) (p : π)
  -- the choice is made where the rules allow more than one answer
  | advance (i : ι) (choice : κ)
  | drop (i : ι)
  | environment (e : η)

variable {World ι Call α η π κ : Type} {Reply : Call → Type} [DecidableEq ι]
  {rules : Rules World ι Call Reply α η}

/-- How a schedule is played. -/
structure Player (rules : Rules World ι Call Reply α η) (π κ : Type) where
  program : π → Prog Call Reply α
  starts : ∀ p, rules.starts (program p)
  answer : (w : World) → (i : ι) → κ → (c : Call) →
    Option {x : Reply c × World // rules.answers w i c x.1 x.2}
  drop : (w : World) → (i : ι) → (c : Call) → Option {w' : World // rules.drops w i c w'} :=
    fun _ _ _ => none
  environment : (w : World) → (e : η) → Option {w' : World // rules.environment w e w'} :=
    fun _ _ => none

namespace Player
variable (player : Player rules π κ)

def play (s : System World ι Call Reply α) : Move ι π κ η →
    Option {x : Label ι Call Reply η × System World ι Call Reply α // Step rules s x.1 x.2}
  | .start i p =>
    match idle : s.threads i with
    | .idle => some ⟨(_, _), .start s i _ idle (player.starts p)⟩
    | _ => none
  | .advance i choice =>
    match live : s.threads i with
    | .live (.call c next) => (player.answer s.world i choice c).map fun x =>
        ⟨(_, _), .call s i c next x.1.1 x.1.2 live x.2⟩
    | _ => none
  | .drop i =>
    match live : s.threads i with
    | .live (.call c next) => (player.drop s.world i c).map fun x =>
        ⟨(_, _), .drop s i c next x.1 live x.2⟩
    | _ => none
  | .environment e => (player.environment s.world e).map fun x =>
      ⟨(_, _), .environment s e x.1 x.2⟩

/-- Play a whole schedule; what it plays is a run. -/
def plays (s : System World ι Call Reply α) : List (Move ι π κ η) →
    Option {x : List (Label ι Call Reply η) × System World ι Call Reply α //
      Steps (Step rules) s x.1 x.2}
  | [] => some ⟨([], s), .nil s⟩
  | move :: moves =>
    match player.play s move with
    | some first => (plays first.1.2 moves).map fun rest => ⟨(_, _), .cons first.2 rest.2⟩
    | none => none

end Player
end Process
