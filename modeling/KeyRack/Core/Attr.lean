import KeyRack.Lib.Fallible
import KeyRack.Lib.SortedMap

/-!
# Attribute sets and their normalization

Typed attribute values, nested to any depth, and the budgeted Unicode
normalization that runs before every canonical encoding. Normalization form C
is a dependency of the source; what the code relies on is that applying it
again changes nothing.
-/
namespace KeyRack

open Fallible SortedMap

/-- The pinned Unicode normalization crate. -/
class UnicodeNormalization where
  nfc : String → String
  nfc_nfc : ∀ s, nfc (nfc s) = nfc s

/-- On ASCII text NFC is the identity. -/
abbrev asciiNormalization : UnicodeNormalization := ⟨id, fun _ => rfl⟩

/-- Invalid or ambiguous identity input. -/
inductive CanonicalizationError where
  | duplicateName (name : String)
  | limitExceeded
  | nonStringIdentity (name : String)
  deriving DecidableEq, Repr

/-- A single attribute value; a record's entries are those of a sorted map. -/
inductive AttributeValue where
  | string (s : String)
  | i64 (n : Int64)
  | bool (b : Bool)
  | listOfString (items : List String)
  | record (entries : List (String × AttributeValue))
  deriving Repr

/-- The entries of a sorted map of attribute values. -/
abbrev AttributeEntries := List (String × AttributeValue)

mutual
/-- Every record inside a value lists its entries in increasing key order. -/
def AttributeValue.Ordered : AttributeValue → Prop
  | .string _ | .i64 _ | .bool _ | .listOfString _ => True
  | .record entries => Sorted entries ∧ OrderedEntries entries
termination_by structural value => value

def OrderedEntries : AttributeEntries → Prop
  | [] => True
  | (_, value) :: rest => value.Ordered ∧ OrderedEntries rest
termination_by structural entries => entries
end

/-- Induction over a value and, with it, over the entries of its records. -/
theorem AttributeValue.induction {P : AttributeValue → Prop} {Q : AttributeEntries → Prop}
    (string : ∀ s, P (.string s)) (i64 : ∀ n, P (.i64 n)) (bool : ∀ b, P (.bool b))
    (listOfString : ∀ items, P (.listOfString items))
    (record : ∀ entries, Q entries → P (.record entries)) (nil : Q [])
    (cons : ∀ key value rest, P value → Q rest → Q ((key, value) :: rest)) :
    (∀ value, P value) ∧ ∀ entries, Q entries :=
  AttributeValue.Ordered.mutual_induct P Q string i64 bool listOfString record nil cons

theorem orderedEntries_iff (entries : AttributeEntries) :
    OrderedEntries entries ↔ ∀ entry ∈ entries, entry.2.Ordered := by
  induction entries with
  | nil => simp [OrderedEntries]
  | cons _ _ ih => simp [OrderedEntries, ih]

/-- An ordered map of attribute names to values, ordered at every level. -/
structure AttributeSet where
  entries : AttributeEntries
  sorted : Sorted entries
  ordered : OrderedEntries entries

/-- `AttributeSet::insert` of a string value. -/
def AttributeSet.insertString (attrs : AttributeSet) (key value : String) : AttributeSet where
  entries := insertEntry key (.string value) attrs.entries
  sorted := insertEntry_sorted _ _ _ attrs.sorted
  ordered := by
    rw [orderedEntries_iff]
    intro entry member
    rcases mem_insertEntry _ _ _ _ member with rfl | old
    · trivial
    · exact (orderedEntries_iff _).mp attrs.ordered entry old

def AttributeSet.new : AttributeSet := ⟨[], List.Pairwise.nil, trivial⟩

@[ext] theorem AttributeSet.ext {a b : AttributeSet} (same : a.entries = b.entries) : a = b := by
  cases a; cases b; simp_all

/-- A flat identity map. -/
abbrev FlatAttrs := SortedMap String String

def maxIdentityBytes : Nat := 16 * 1024 * 1024
def maxAttributeDepth : Nat := 64

variable [UnicodeNormalization]

/-- NFC for identity strings. -/
def normalizeText (value : String) : String := UnicodeNormalization.nfc value

@[simp] theorem normalizeText_idem (value : String) :
    normalizeText (normalizeText value) = normalizeText value := UnicodeNormalization.nfc_nfc value

/-- Spend part of the byte budget. -/
def charge (budget bytes : Nat) : Except CanonicalizationError Nat :=
  if bytes ≤ budget then .ok (budget - bytes) else .error .limitExceeded

omit [UnicodeNormalization] in
@[simp] theorem charge_eq_ok :
    charge budget bytes = .ok left ↔ bytes ≤ budget ∧ left = budget - bytes := by
  unfold charge
  split <;> simp_all [eq_comm]

/-- Normalize one string and charge for its framed encoding. -/
def text (value : String) (budget : Nat) : Except CanonicalizationError (String × Nat) := do
  refuseIf (value.utf8ByteSize > maxIdentityBytes) .limitExceeded
  let normalized := normalizeText value
  let budget ← charge budget (normalized.utf8ByteSize + 5)
  return (normalized, budget)

theorem text_eq_ok :
    text value budget = .ok (out, left) ↔
      value.utf8ByteSize ≤ maxIdentityBytes ∧ out = normalizeText value ∧
        out.utf8ByteSize + 5 ≤ budget ∧ left = budget - (out.utf8ByteSize + 5) := by
  simp only [text, eq_ok, charge_eq_ok, Prod.mk.injEq]
  constructor
  · rintro ⟨_, _, _, ⟨enough, rfl⟩, rfl, rfl⟩
    exact ⟨by omega, rfl, enough, rfl⟩
  · rintro ⟨_, rfl, enough, rfl⟩
    exact ⟨(), by omega, _, ⟨enough, rfl⟩, rfl, rfl⟩

/-- The loop of `normalizeFlat`, with the map built so far and the budget left. -/
def normalizeFlatEntries :
    List (String × String) → FlatAttrs → Nat → Except CanonicalizationError (FlatAttrs × Nat)
  | [], normalized, budget => .ok (normalized, budget)
  | (key, value) :: rest, normalized, budget => do
    let (key, budget) ← text key budget
    refuseIf (normalized.containsKey key) (.duplicateName key)
    let (value, budget) ← text value budget
    normalizeFlatEntries rest (normalized.insert key value) budget

/-- Normalize names and values; two names that normalize alike are refused even
    when their values are equal. -/
def normalizeFlat (map : FlatAttrs) : Except CanonicalizationError FlatAttrs := do
  let (normalized, _) ← normalizeFlatEntries map.entries .empty maxIdentityBytes
  return normalized

/-- The strings of a list, each normalized and charged. -/
def texts : List String → Nat → Except CanonicalizationError (List String × Nat)
  | [], budget => .ok ([], budget)
  | item :: rest, budget => do
    let (item, budget) ← text item budget
    let (rest, budget) ← texts rest budget
    return (item :: rest, budget)

mutual
/-- One value of `normalizeEntries`, charged by its encoded size. -/
def normalizeValue (depth : Nat) (value : AttributeValue) (budget : Nat) :
    Except CanonicalizationError (AttributeValue × Nat) :=
  match value with
  | .string s => do
    let (s, budget) ← text s budget
    return (.string s, budget)
  | .i64 n => do
    -- tag and length, then eight bytes
    let budget ← charge budget 13
    return (.i64 n, budget)
  | .bool b => do
    let budget ← charge budget 6
    return (.bool b, budget)
  | .listOfString items => do
    -- tag, length and count; each item is charged a tag that it is encoded without
    let budget ← charge budget 9
    let (items, budget) ← texts items budget
    return (.listOfString items, budget)
  | .record inner => do
    let budget ← charge budget 5
    refuseIf (depth + 1 > maxAttributeDepth) .limitExceeded
    let (out, budget) ← normalizeEntries (depth + 1) inner [] budget
    return (.record out, budget)
termination_by structural value

/-- Normalize entries into `out`; two names that normalize alike are refused. -/
def normalizeEntries (depth : Nat) (input out : AttributeEntries) (budget : Nat) :
    Except CanonicalizationError (AttributeEntries × Nat) :=
  match input with
  | [] => .ok (out, budget)
  | (key, value) :: rest => do
    let (key, budget) ← text key budget
    -- names are distinct on input, so a clash comes from normalization
    refuseIf (hasKey key out) (.duplicateName key)
    let (value, budget) ← normalizeValue depth value budget
    normalizeEntries depth rest (insertEntry key value out) budget
termination_by structural input
end

/-- One map level: the depth limit, then the entries. -/
def normalizeMap (input : AttributeEntries) (depth budget : Nat) :
    Except CanonicalizationError (AttributeEntries × Nat) := do
  refuseIf (depth > maxAttributeDepth) .limitExceeded
  normalizeEntries depth input [] budget

/-- Normalization keeps the output ordered at every level. -/
theorem normalize_ordered :
    (∀ value depth budget out left, normalizeValue depth value budget = .ok (out, left) →
      out.Ordered) ∧
    ∀ input depth out budget result left,
      normalizeEntries depth input out budget = .ok (result, left) →
      Sorted out → OrderedEntries out → Sorted result ∧ OrderedEntries result := by
  apply AttributeValue.induction
  case string | i64 | bool | listOfString =>
    intro x depth budget out left returned
    simp only [normalizeValue, eq_ok] at returned
    grind [AttributeValue.Ordered]
  case record =>
    intro _ ih depth budget out left returned
    simp only [normalizeValue, eq_ok] at returned
    obtain ⟨_, _, _, _, ⟨_, _⟩, inner, same⟩ := returned
    cases same
    -- the inner map is built from the empty one
    exact ih _ _ _ _ _ inner List.Pairwise.nil trivial
  case nil =>
    intro depth out budget result left returned sorted ordered
    cases returned
    exact ⟨sorted, ordered⟩
  case cons =>
    intro _ _ _ ihValue ihRest _ _ _ _ _ returned sorted ordered
    simp only [normalizeEntries, bind_eq_ok] at returned
    obtain ⟨⟨_, _⟩, _, _, _, ⟨_, _⟩, inner, tail⟩ := returned
    refine ihRest _ _ _ _ _ tail (insertEntry_sorted _ _ _ sorted) ?_
    rw [orderedEntries_iff] at ordered ⊢
    intro entry member
    rcases mem_insertEntry _ _ _ _ member with rfl | old
    · exact ihValue _ _ _ _ inner
    · exact ordered entry old

theorem normalizeMap_ordered (returned : normalizeMap input depth budget = .ok (result, left)) :
    Sorted result ∧ OrderedEntries result := by
  simp only [normalizeMap, bind_eq_ok] at returned
  obtain ⟨_, _, inner⟩ := returned
  exact normalize_ordered.2 _ _ _ _ _ _ inner List.Pairwise.nil trivial

/-- Lossless typed normalization for canonical encoding, including nested records. -/
def normalizeAttributes (attrs : AttributeSet) : Except CanonicalizationError AttributeSet :=
  match returned : normalizeMap attrs.entries 0 maxIdentityBytes with
  | .error e => .error e
  | .ok (out, _) =>
    .ok ⟨out, (normalizeMap_ordered returned).1, (normalizeMap_ordered returned).2⟩

theorem normalizeAttributes_eq_ok :
    normalizeAttributes attrs = .ok out ↔
      ∃ left, normalizeMap attrs.entries 0 maxIdentityBytes = .ok (out.entries, left) := by
  unfold normalizeAttributes
  split
  next failed => simp [failed]
  next left returned =>
    simp only [Except.ok.injEq, returned, AttributeSet.ext_iff, Prod.mk.injEq]
    constructor
    · intro same
      exact ⟨left, same, rfl⟩
    · rintro ⟨_, same, _⟩
      exact same

end KeyRack
