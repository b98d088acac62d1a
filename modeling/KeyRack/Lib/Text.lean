import Mathlib

/-!
# Splitting and reading text

Separators and decimal numbers in a list of characters, as a reader of composed
identifiers meets them, and the lines of a text.
-/
namespace Text

/-- The parts before and after the first separator. -/
def splitOnce (separator : Char) : List Char → Option (List Char × List Char)
  | [] => none
  | c :: rest =>
    if c = separator then some ([], rest)
    else (splitOnce separator rest).map fun parts => (c :: parts.1, parts.2)

/-- The parts before and after the last separator. -/
def rsplitOnce (separator : Char) (text : List Char) : Option (List Char × List Char) :=
  (splitOnce separator text.reverse).map fun parts => (parts.2.reverse, parts.1.reverse)

def dropPlus : List Char → List Char
  | '+' :: rest => rest
  | text => text

/-- A decimal number up to `bound`; one leading plus sign is accepted. -/
def parseDecimal (bound : Nat) (text : List Char) : Option Nat :=
  let digits := dropPlus text
  if digits ≠ [] ∧ digits.all Char.isDigit ∧ Nat.ofDigitChars 10 digits 0 ≤ bound then
    some (Nat.ofDigitChars 10 digits 0)
  else none

theorem splitOnce_append (absent : separator ∉ head)
    (tail : List Char) : splitOnce separator (head ++ separator :: tail) = some (head, tail) := by
  induction head with
  | nil => simp [splitOnce]
  | cons c rest ih =>
    have different : c ≠ separator := fun same => absent (by simp [same])
    have rest := ih fun member => absent (List.mem_cons_of_mem _ member)
    simp [splitOnce, different, rest]

theorem toList_toString (n : Nat) : (toString n).toList = Nat.toDigits 10 n := by
  rw [Nat.toString_eq_repr, Nat.repr_eq_ofList_toDigits, String.toList_ofList]

/-- Different numbers are printed differently. -/
theorem toString_injective {n m : Nat} (same : (toString n).toList = (toString m).toList) :
    n = m := by
  rw [toList_toString, toList_toString] at same
  calc n = Nat.ofDigitChars 10 (Nat.toDigits 10 n) 0 :=
        (Nat.ofDigitChars_toDigits (by decide) (by decide)).symm
    _ = Nat.ofDigitChars 10 (Nat.toDigits 10 m) 0 := by rw [same]
    _ = m := Nat.ofDigitChars_toDigits (by decide) (by decide)

/-- A printed number is read back as itself, if it is read at all. -/
theorem parseDecimal_toString
    (parsed : parseDecimal bound (toString n).toList = some m) : m = n := by
  -- a printed number holds digits only, so there is no sign to drop
  have unsigned : dropPlus (Nat.toDigits 10 n) = Nat.toDigits 10 n := by
    unfold dropPlus
    split
    next signed =>
      have digit := Nat.isDigit_of_mem_toDigits (c := '+') (b := 10) (n := n) (by decide)
        (by decide) (by simp [signed])
      exact absurd digit (by decide)
    next => rfl
  rw [parseDecimal, toList_toString, unsigned] at parsed
  split at parsed
  next =>
    cases parsed
    exact Nat.ofDigitChars_toDigits (by decide) (by decide)
  next => cases parsed

/-! ### Lines -/

def newline : Char := Char.ofNat 10

def carriageReturn : Char := Char.ofNat 13

/-- Put a character in front of the first line. -/
def push (c : Char) : List (List Char) → List (List Char)
  | [] => [[c]]
  | first :: rest => (c :: first) :: rest

/-- The lines of a text without their ends; the last one may lack its end, and a
    carriage return before the end of a line belongs to it. -/
def lines : List Char → List (List Char)
  | [] => []
  | c :: rest =>
    if c = newline then [] :: lines rest
    else if c = carriageReturn ∧ rest.head? = some newline then lines rest
    else push c (lines rest)

example : lines ("ab".toList ++ [carriageReturn, newline, newline] ++ "c".toList) =
    ["ab".toList, [], "c".toList] := by decide

/-- The characters that Unicode calls white space. -/
def isWhiteSpace (c : Char) : Bool :=
  c.toNat ∈ [9, 10, 11, 12, 13, 32, 0x85, 0xA0, 0x1680, 0x2000, 0x2001, 0x2002, 0x2003, 0x2004,
    0x2005, 0x2006, 0x2007, 0x2008, 0x2009, 0x200A, 0x2028, 0x2029, 0x202F, 0x205F, 0x3000]

def isBlank (line : List Char) : Bool := line.all isWhiteSpace

/-- Text that stays on one line: not blank and without line ends. -/
structure OneLine (text : List Char) : Prop where
  newline : newline ∉ text
  carriageReturn : carriageReturn ∉ text
  visible : isBlank text = false

theorem OneLine.ne_nil (line : OneLine text) : text ≠ [] := by
  rintro rfl
  cases line.visible

theorem lines_cons_plain (noEnd : c ≠ newline)
    (noReturn : c ≠ carriageReturn) : lines (c :: rest) = push c (lines rest) := by
  simp [lines, noEnd, noReturn]

theorem lines_ended (rest : List Char) (noEnd : newline ∉ line)
    (noReturn : carriageReturn ∉ line) : lines (line ++ newline :: rest) = line :: lines rest := by
  induction line with
  | nil => simp [lines]
  | cons _ _ ih =>
    rw [List.mem_cons, not_or] at noEnd noReturn
    rw [List.cons_append, lines_cons_plain (Ne.symm noEnd.1) (Ne.symm noReturn.1),
      ih noEnd.2 noReturn.2, push]

theorem lines_unended (nonempty : line ≠ []) (noEnd : newline ∉ line)
    (noReturn : carriageReturn ∉ line) : lines line = [line] := by
  induction line with
  | nil => exact absurd rfl nonempty
  | cons c line ih =>
    rw [List.mem_cons, not_or] at noEnd noReturn
    rw [lines_cons_plain (Ne.symm noEnd.1) (Ne.symm noReturn.1)]
    by_cases last : line = []
    · simp [last, lines, push]
    · rw [ih last noEnd.2 noReturn.2, push]

/-- Each text on a line of its own. -/
def joinLines (texts : List (List Char)) : List Char := texts.flatMap fun text => text ++ [newline]

theorem lines_joinLines (all : ∀ text ∈ texts, OneLine text)
    (rest : List Char) : lines (joinLines texts ++ rest) = texts ++ lines rest := by
  induction texts with
  | nil => rfl
  | cons text texts ih =>
    obtain ⟨first, others⟩ := List.forall_mem_cons.mp all
    have split : joinLines (text :: texts) ++ rest =
        text ++ newline :: (joinLines texts ++ rest) := by simp [joinLines]
    rw [split, lines_ended _ first.newline first.carriageReturn, ih others, List.cons_append]

end Text
