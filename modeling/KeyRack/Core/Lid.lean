import KeyRack.Core.Canon

/-!
# Identifiers, clocks and machine words

Logical key identifiers, operation identifiers and the bounds of the machine
integers that stored counters pass through. The hash and the textual form of
operation identifiers belong to dependencies and stay parameters.
-/
namespace KeyRack

open Fallible

abbrev Bytes := List UInt8

/-- A 32-byte hash value. -/
abbrev Digest := Vector UInt8 32

class Blake3 where
  hash : Bytes → Digest

/-- A stand-in hash for evaluation: the first 32 bytes. -/
abbrev truncatingHash : Blake3 := ⟨fun bytes => Vector.ofFn fun i => bytes.getD i 0⟩

/-- A 32-byte logical identifier derived from a canonicalized attribute set. -/
structure Lid where
  bytes : Digest
  deriving DecidableEq, Repr

def Lid.derive [Blake3] (version : CanonicalizationVersion) (form : Bytes) : Lid :=
  ⟨Blake3.hash (version.asLeBytes ++ form)⟩

structure Uuid where
  bits : BitVec 128
  deriving DecidableEq, Repr

def Uuid.isNil (u : Uuid) : Bool := u.bits == 0

/-- The textual form of operation identifiers: printing is read back, and the
    hyphenated form holds no colon. -/
class UuidText where
  display : Uuid → String
  parse : String → Option Uuid
  parse_display : ∀ u, parse (display u) = some u
  colonless : ∀ u, ':' ∉ (display u).toList

/-- An instant in UTC, in nanoseconds since the epoch. -/
abbrev DateTime := Int

def u64Max : Nat := 2 ^ 64 - 1
def i64Max : Nat := 2 ^ 63 - 1

/-- `checked_add(1)` on a `u64`. -/
def checkedSucc (n : Nat) : Option Nat := if n < u64Max then some (n + 1) else none

@[simp] theorem checkedSucc_eq_some : checkedSucc n = some m ↔ n < u64Max ∧ m = n + 1 := by
  unfold checkedSucc
  split <;> simp_all [eq_comm]

/-- `+= 1` on a `u64`, which wraps in a release build. -/
def wrappingSucc (n : Nat) : Nat := (n + 1) % 2 ^ 64

theorem wrappingSucc_eq_iff : wrappingSucc n = n + 1 ↔ n < u64Max := by
  unfold wrappingSucc u64Max
  omega

/-! ### The hyphenated form

A concrete instance, so that the model can be evaluated: 32 hexadecimal digits
in groups of 8, 4, 4, 4 and 12. Parsing ignores hyphens. -/

def hexDigits : List Char :=
  ['0', '1', '2', '3', '4', '5', '6', '7', '8', '9', 'a', 'b', 'c', 'd', 'e', 'f']

/-- The digits of a number, least significant first. -/
def toHex : Nat → Nat → List Char
  | 0, _ => []
  | width + 1, n => hexDigits.getD (n % 16) '0' :: toHex width (n / 16)

def fromHex : List Char → Nat
  | [] => 0
  | digit :: rest => hexDigits.idxOf digit + 16 * fromHex rest

/-- A hyphen after each group of the given sizes. -/
def hyphenate : List Nat → List Char → List Char
  | [], digits => digits
  | size :: sizes, digits => digits.take size ++ '-' :: hyphenate sizes (digits.drop size)

private theorem mem_toHex (width n : Nat) : ∀ digit ∈ toHex width n, digit ∈ hexDigits := by
  induction width generalizing n with
  | zero => simp [toHex]
  | succ _ ih =>
    intro digit member
    rcases List.mem_cons.mp member with rfl | rest
    · have all : ∀ d : Fin 16, hexDigits.getD d '0' ∈ hexDigits := by decide
      exact all ⟨n % 16, Nat.mod_lt _ (by decide)⟩
    · exact ih _ digit rest

private theorem fromHex_toHex (width n : Nat) (small : n < 16 ^ width) :
    fromHex (toHex width n) = n := by
  induction width generalizing n with
  | zero =>
    have zero : n = 0 := by simpa using small
    simp [toHex, fromHex, zero]
  | succ _ ih =>
    have all : ∀ d : Fin 16, hexDigits.idxOf (hexDigits.getD d '0') = d := by decide
    have low := all ⟨n % 16, Nat.mod_lt _ (by decide)⟩
    have high := ih (n / 16) (by rw [Nat.pow_succ] at small; omega)
    simp only [toHex, fromHex, high, low]
    exact Nat.mod_add_div n 16

private theorem filter_hyphenate (sizes : List Nat) (digits : List Char) (pure : '-' ∉ digits) :
    (hyphenate sizes digits).filter (· ≠ '-') = digits := by
  have keep (part : List Char) (absent : '-' ∉ part) : part.filter (· ≠ '-') = part :=
    List.filter_eq_self.mpr fun c member => decide_eq_true fun same => absent (same ▸ member)
  induction sizes generalizing digits with
  | nil => exact keep digits pure
  | cons size _ ih =>
    have head := keep (digits.take size) fun member => pure (List.mem_of_mem_take member)
    have tail := ih (digits.drop size) fun member => pure (List.mem_of_mem_drop member)
    rw [hyphenate, List.filter_append, List.filter_cons_of_neg (by decide), head, tail,
      List.take_append_drop]

private theorem mem_hyphenate (sizes : List Nat) (digits : List Char) :
    ∀ c ∈ hyphenate sizes digits, c = '-' ∨ c ∈ digits := by
  induction sizes generalizing digits with
  | nil => exact fun c member => Or.inr member
  | cons _ _ ih =>
    intro c member
    simp only [hyphenate, List.mem_append, List.mem_cons] at member
    rcases member with head | rfl | tail
    · exact Or.inr (List.mem_of_mem_take head)
    · exact Or.inl rfl
    · exact (ih _ c tail).imp_right List.mem_of_mem_drop

abbrev hyphenatedText : UuidText where
  display u := String.ofList (hyphenate [8, 4, 4, 4] (toHex 32 u.bits.toNat).reverse)
  parse text := some ⟨BitVec.ofNat 128 (fromHex (text.toList.filter (· ≠ '-')).reverse)⟩
  parse_display u := by
    have hyphenless : '-' ∉ (toHex 32 u.bits.toNat).reverse := fun member =>
      absurd (mem_toHex 32 _ _ (List.mem_reverse.mp member)) (by decide)
    have small : u.bits.toNat < 16 ^ 32 := u.bits.isLt
    rw [String.toList_ofList, filter_hyphenate _ _ hyphenless, List.reverse_reverse,
      fromHex_toHex _ _ small, BitVec.ofNat_toNat, BitVec.setWidth_eq]
  colonless u := by
    rw [String.toList_ofList]
    intro member
    rcases mem_hyphenate _ _ _ member with same | digit
    · exact absurd same (by decide)
    · exact absurd (mem_toHex 32 _ _ (List.mem_reverse.mp digit)) (by decide)

/-! ### The textual form of key identifiers -/

/-- The two lowercase digits of a byte. -/
def hexByte (byte : UInt8) : List Char :=
  [hexDigits.getD (byte.toNat / 16) '0', hexDigits.getD (byte.toNat % 16) '0']

/-- `lid_` and 64 hexadecimal digits. -/
def Lid.display (lid : Lid) : String :=
  "lid_" ++ String.ofList (lid.bytes.toList.flatMap hexByte)

inductive LidParseError where
  | missingPrefix
  | wrongLength (length : Nat)
  | invalidHex (position : Nat)
  deriving DecidableEq, Repr

def hexDigit (byte : UInt8) : Option UInt8 :=
  if 0x30 ≤ byte ∧ byte ≤ 0x39 then some (byte - 0x30)
  else if 0x61 ≤ byte ∧ byte ≤ 0x66 then some (byte - 0x61 + 10)
  else if 0x41 ≤ byte ∧ byte ≤ 0x46 then some (byte - 0x41 + 10)
  else none

def parseHexPairs (position : Nat) : Bytes → Except LidParseError Bytes
  | high :: low :: rest => do
    let high ← okOr (hexDigit high) (.invalidHex position)
    let low ← okOr (hexDigit low) (.invalidHex (position + 1))
    let bytes ← parseHexPairs (position + 2) rest
    return (high <<< 4 ||| low) :: bytes
  | _ => return []

def Lid.parse (text : String) : Except LidParseError Lid := do
  let hexPart ← okOr ((utf8 text).dropPrefix? (utf8 "lid_")) .missingPrefix
  refuseIf (hexPart.length ≠ 64) (.wrongLength hexPart.length)
  let bytes ← parseHexPairs 0 hexPart
  return ⟨Vector.ofFn fun i => bytes.getD i 0⟩

end KeyRack
