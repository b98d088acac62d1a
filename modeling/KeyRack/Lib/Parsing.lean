import KeyRack.Lib.Octets

/-!
# Readers of token streams

A reader takes the tokens of one value off the front of a stream. What it is tested by is
the tokens that a writer puts there: it takes exactly those and leaves whatever follows.
-/
namespace Parsing

variable {τ ε α β : Type}

/-- A reader of a stream of tokens. -/
abbrev ReaderOf (τ ε α : Type) : Type := StateT (List τ) (Except ε) α

/-- The reader takes these tokens for this value, whatever follows them. -/
def Reads (reader : ReaderOf τ ε α) (tokens : List τ) (value : α) : Prop :=
  ∀ rest, reader.run (tokens ++ rest) = .ok (value, rest)

theorem reads_pure (a : α) : Reads (pure a : ReaderOf τ ε α) [] a := by
  intro _
  rfl

variable {reader : ReaderOf τ ε α} {tokens : List τ} {next : α → ReaderOf τ ε β} {a : α}

/-- One reader after the other reads one part after the other. -/
theorem Reads.bind (first : Reads reader tokens a)
    (second : Reads (next a) more b) : Reads (reader >>= next) (tokens ++ more) b := by
  intro rest
  rw [List.append_assoc, StateT.run_bind, first]
  exact second rest

/-- A computation that takes nothing. -/
theorem reads_lift {x : Except ε α} (computed : x = .ok a) :
    Reads (liftM x : ReaderOf τ ε α) [] a := by
  intro _
  subst computed
  rfl

/-- A last part that takes nothing. -/
theorem Reads.finish (first : Reads reader tokens a) (second : Reads (next a) [] b) :
    Reads (reader >>= next) tokens b := by
  have both := first.bind second
  rwa [List.append_nil] at both

/-- What a reader takes off a stream is determined by the stream. -/
theorem Reads.unique (first : Reads reader tokens a)
    (second : Reads reader tokens' a') (same : tokens ++ rest = tokens' ++ rest') :
    a = a' ∧ rest = rest' := by
  have run := first rest
  rw [same, second rest'] at run
  cases run
  exact ⟨rfl, rfl⟩

/-! ### What a reader can yield -/

/-- Every value that the reader yields has this property. -/
def Yields (P : α → Prop) (reader : ReaderOf τ ε α) : Prop :=
  ∀ tokens a rest, reader.run tokens = .ok (a, rest) → P a

variable {P : α → Prop}

theorem yields_pure (holds : P a) : Yields P (pure a : ReaderOf τ ε α) := by
  rintro _ _ _ ⟨⟩
  exact holds

variable {Q : β → Prop}

theorem yields_throw_then : Yields Q ((throw e : ReaderOf τ ε α) >>= next) := by
  rintro _ b _ ⟨⟩

/-- A computation that takes nothing. -/
theorem yields_lift {x : Except ε α} (holds : ∀ a, x = .ok a → P a) :
    Yields P (liftM x : ReaderOf τ ε α) := by
  intro _ a _ ran
  cases x with
  | error => cases ran
  | ok =>
    cases ran
    exact holds _ rfl

theorem Yields.bind (first : Yields P reader) (second : ∀ a, P a → Yields Q (next a)) :
    Yields Q (reader >>= next) := by
  intro tokens b rest ran
  rw [StateT.run_bind] at ran
  cases middle : reader.run tokens with
  | error =>
    rw [middle] at ran
    cases ran
  | ok pair =>
    obtain ⟨a, left⟩ := pair
    rw [middle] at ran
    exact second a (first _ _ _ middle) left b rest ran

/-- Where nothing of the first part matters. -/
theorem yields_then (second : ∀ a, Yields Q (next a)) : Yields Q (reader >>= next) := by
  have first : Yields (fun _ => True) reader := fun _ _ _ _ => trivial
  exact first.bind fun a _ => second a

end Parsing
