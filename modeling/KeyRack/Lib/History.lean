import KeyRack.Lib.Process

/-!
# Histories of calls

The calls of a run with their callers and replies, in order. Where an invariant speaks
of the calls and the world only, the other labels of the run do not matter.
-/
namespace Process

open Trace List

variable {World ι Call α η : Type} {Reply : Call → Type}

/-- The calls among the labels. -/
def history (labels : List (Label ι Call Reply η)) : List (ι × Event Call Reply) :=
  labels.filterMap fun label => match label with
    | .called i event => some (i, event)
    | _ => none

theorem mem_history : (i, event) ∈ history labels ↔ .called i event ∈ labels := by
  simp only [history, mem_filterMap]
  constructor
  · rintro ⟨label, member, taken⟩
    cases label with
    | called =>
      cases taken
      exact member
    | started | dropped | environment => cases taken
  · intro member
    exact ⟨_, member, rfl⟩

/-- A program of which only the end matters, where every end will do. -/
theorem obeys_of_ensures {β : Type} {ensures : List (Event Call Reply) → β → Prop}
    {own : List (Event Call Reply)} {p : Prog Call Reply β} (holds : ∀ later b, ensures later b) :
    Obeys (fun _ _ => True) ensures own p := by
  induction p generalizing own with
  | done b => exact holds own b
  | call _ _ ih => exact ⟨trivial, fun r => ih r⟩

variable {past : List (ι × Event Call Reply)} {i j : ι} {event : Event Call Reply}
  {made : ι × Event Call Reply}

/-- Someone has made this call and got this reply. -/
def Happened (past : List (ι × Event Call Reply)) (event : Event Call Reply) : Prop :=
  ∃ i, (i, event) ∈ past

theorem happened_concat :
    Happened (past ++ [(i, new)]) event ↔ Happened past event ∨ new = event := by
  simp only [Happened, mem_append, mem_singleton, Prod.mk.injEq, exists_or]
  constructor
  · rintro (old | ⟨_, -, same⟩)
    · exact .inl old
    · exact .inr same.symm
  · rintro (old | same)
    · exact .inl old
    · exact .inr ⟨i, rfl, same.symm⟩

theorem Happened.concat (happened : Happened past event) :
    Happened (past ++ [made]) event := happened_concat.mpr (.inl happened)

/-- Every call finds this in the history before it. -/
def Always (Q : List (ι × Event Call Reply) → ι × Event Call Reply → Prop)
    (past : List (ι × Event Call Reply)) : Prop :=
  ∀ before made after, past = before ++ made :: after → Q before made

variable {Q : List (ι × Event Call Reply) → ι × Event Call Reply → Prop}

theorem always_nil : Always Q [] := by
  intro _ _ _ same
  simp at same

theorem Always.concat (always : Always Q past) (now : Q past made) : Always Q (past ++ [made]) := by
  intro before other after same
  rcases eq_nil_or_concat after with rfl | ⟨rest, _, rfl⟩
  · obtain ⟨rfl, single⟩ := append_inj' same rfl
    cases single
    exact now
  · rw [concat_eq_append, ← cons_append, ← append_assoc] at same
    obtain ⟨earlier, -⟩ := append_inj' same rfl
    exact always before other rest earlier

variable [DecidableEq ι]

/-- The events of one caller. -/
def eventsOf (i : ι) (past : List (ι × Event Call Reply)) : List (Event Call Reply) :=
  past.filterMap fun made => if made.1 = i then some made.2 else none

theorem eventsOf_history (i : ι) (labels : List (Label ι Call Reply η)) :
    eventsOf i (history labels) = own i labels := by
  unfold eventsOf history own
  rw [filterMap_filterMap]
  congr 1
  funext label
  cases label <;> rfl

theorem mem_eventsOf : event ∈ eventsOf i past ↔ (i, event) ∈ past := by
  simp only [eventsOf, mem_filterMap, Option.ite_none_right_eq_some, Option.some.injEq]
  constructor
  · rintro ⟨⟨_, _⟩, member, rfl, rfl⟩
    exact member
  · intro member
    exact ⟨(i, event), member, rfl, rfl⟩

@[simp] theorem eventsOf_nil : eventsOf i ([] : List (ι × Event Call Reply)) = [] := rfl

theorem eventsOf_concat_self : eventsOf i (past ++ [(i, event)]) = eventsOf i past ++ [event] := by
  simp [eventsOf]

theorem eventsOf_concat_ne (other : j ≠ i) :
    eventsOf i (past ++ [(j, event)]) = eventsOf i past := by
  simp [eventsOf, other]

/-- The events of a caller only grow. -/
theorem eventsOf_grows (i : ι) (past more : List (ι × Event Call Reply)) :
    eventsOf i past <+: eventsOf i (past ++ more) := by
  unfold eventsOf
  rw [filterMap_append]
  exact prefix_append _ _

theorem eventsOf_concat_eq_nil (none : eventsOf i (past ++ [(j, event)]) = []) :
    eventsOf i past = [] := prefix_nil.mp (none ▸ eventsOf_grows i past [(j, event)])

/-- The history around an event of one caller. -/
theorem exists_of_eventsOf {before after : List (Event Call Reply)}
    (events : eventsOf i past = before ++ event :: after) :
    ∃ earlier later, past = earlier ++ (i, event) :: later ∧ eventsOf i earlier = before ∧
      eventsOf i later = after := by
  obtain ⟨earlier, _, rfl, first, second⟩ := filterMap_eq_append_iff.mp events
  obtain ⟨skipped, made, later, rfl, none, mine, last⟩ := filterMap_eq_cons_iff.mp second
  obtain ⟨j, _⟩ := made
  by_cases same : j = i
  · subst same
    simp only [if_true, Option.some.injEq] at mine
    subst mine
    refine ⟨earlier ++ skipped, later, by simp, ?_, last⟩
    have nothing : eventsOf j skipped = [] := filterMap_eq_nil_iff.mpr none
    unfold eventsOf at nothing ⊢
    rw [filterMap_append, nothing, append_nil, first]
  · simp [same] at mine

variable {rules : Rules World ι Call Reply α η} {allowed : List (Event Call Reply) → Call → Prop}
  {ensures : List (Event Call Reply) → α → Prop}

/-- A predicate on the calls so far and the world that holds along every run: each
    answer to an allowed call keeps it, and so does whatever else changes the world. -/
theorem steps_answered {P : List (ι × Event Call Reply) → World → Prop}
    (every : ∀ p, rules.starts p → Obeys allowed ensures [] p)
    (answered : ∀ past w i c r w', rules.answers w i c r w' → allowed (eventsOf i past) c →
      P past w → P (past ++ [(i, ⟨c, r⟩)]) w')
    (dropped : ∀ past w i c w', rules.drops w i c w' → P past w → P past w')
    (changed : ∀ past w e w', rules.environment w e w' → P past w → P past w')
    (steps : Steps (Step rules) s labels t) (idle : ∀ i, s.threads i = .idle)
    (start : P [] s.world) : Following allowed ensures labels t ∧ P (history labels) t.world := by
  apply steps_guided (P := fun labels s => P (history labels) s.world) every _ steps idle start
  intro past s _ t step permitted _ holds
  cases step with
  | start => simpa [history] using holds
  | call i c _ r world _ reply =>
    have now := answered (history past) s.world i c r world reply
      (by rw [eventsOf_history]; exact permitted) holds
    simpa [history] using now
  | drop _ _ _ _ _ left => simpa [history] using dropped _ _ _ _ _ left holds
  | environment _ _ disturbed => simpa [history] using changed _ _ _ _ disturbed holds

end Process
