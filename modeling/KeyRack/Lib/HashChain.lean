import Mathlib

/-!
# Hash chains

A log in which every entry names the link of the entry before it. What an entry
commits to is said by its link alone: two chains that meet in one entry agree on
everything before it as far as equal links mean equal entries.
-/
namespace HashChain

variable {Entry Link : Type} {previous : Entry → Option Link} {link : Entry → Link}

/-- The first entry names the start, and every other one the entry before it. -/
def Linked (previous : Entry → Option Link) (link : Entry → Link) : Link → List Entry → Prop
  | _, [] => True
  | expected, entry :: rest =>
    previous entry = some expected ∧ Linked previous link (link entry) rest

/-- The link that the next entry has to name. -/
def tip (link : Entry → Link) (start : Link) (log : List Entry) : Link :=
  log.foldl (fun _ entry => link entry) start

@[simp] theorem tip_concat (start : Link) (log : List Entry) (entry : Entry) :
    tip link start (log ++ [entry]) = link entry := by
  simp [tip]

variable {log : List Entry}

theorem linked_append :
    Linked previous link start (log ++ later) ↔
      Linked previous link start log ∧ Linked previous link (tip link start log) later := by
  induction log generalizing start with
  | nil => simp [Linked, tip]
  | cons _ _ ih =>
    rw [List.cons_append, Linked, Linked, ih, and_assoc]
    rfl

theorem linked_concat :
    Linked previous link start (log ++ [entry]) ↔
      Linked previous link start log ∧ previous entry = some (tip link start log) := by
  simp [linked_append, Linked]

theorem Linked.take (linked : Linked previous link start log) (n : Nat) :
    Linked previous link start (log.take n) := by
  rw [← List.take_append_drop n log, linked_append] at linked
  exact linked.1

/-- Two chains that end in the same entry are equal, their starts too, if entry by
    entry equal links mean equal entries. -/
theorem eq_of_concat_eq (linked : Linked previous link start (log ++ [last]))
    (linked' : Linked previous link start' (log' ++ [last]))
    (pinned : List.Forall₂ (fun entry entry' => link entry = link entry' → entry = entry')
      log log') : log = log' ∧ start = start' := by
  -- the entry after an entry names its link, so equality comes back from the end
  induction pinned generalizing start start' with
  | nil =>
    obtain ⟨names, -⟩ := linked
    obtain ⟨names', -⟩ := linked'
    exact ⟨rfl, Option.some.inj (names.symm.trans names')⟩
  | cons pin _ ih =>
    obtain ⟨names, rest⟩ := linked
    obtain ⟨names', rest'⟩ := linked'
    obtain ⟨same, links⟩ := ih rest rest'
    cases pin links
    exact ⟨by rw [same], Option.some.inj (names.symm.trans names')⟩

end HashChain
