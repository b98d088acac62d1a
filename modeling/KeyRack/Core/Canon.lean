import KeyRack.Core.Attr
import KeyRack.Lib.Framing

/-!
# Canonical encoding

The deterministic byte form of an attribute set: tag, little-endian length and
payload for every value, with records encoded as nested maps.
-/
namespace KeyRack

open Framing

/-- Canonicalization version tag. Stored in every key record. -/
inductive CanonicalizationVersion where
  | v2
  deriving DecidableEq, Repr

/-- A `usize` length cast to `u32`. -/
def lengthLe32 (length : Nat) : List UInt8 := littleEndian 4 (length % 2 ^ 32)

def CanonicalizationVersion.asLeBytes : CanonicalizationVersion → List UInt8
  | .v2 => littleEndian 4 2

def tagString : UInt8 := 0x01
def tagI64 : UInt8 := 0x02
def tagBool : UInt8 := 0x03
def tagListOfString : UInt8 := 0x04
def tagRecord : UInt8 := 0x05

/-- The UTF-8 bytes of a string. -/
def utf8 (s : String) : List UInt8 := s.toByteArray.data.toList

@[simp] theorem length_utf8 (s : String) : (utf8 s).length = s.utf8ByteSize := rfl

theorem utf8_inj (same : utf8 s = utf8 t) : s = t := by
  apply String.ext_iff.mpr
  exact congrArg _ (String.toByteArray_inj.mp (ByteArray.ext (Array.toList_inj.mp same)))

theorem fromUTF8_utf8 (text : String) : String.fromUTF8? ⟨(utf8 text).toArray⟩ = some text := by
  have bytes : (⟨(utf8 text).toArray⟩ : ByteArray) = text.toByteArray := by simp [utf8]
  rw [bytes]
  simp [String.fromUTF8?, text.isValidUTF8, String.fromUTF8]

variable [UnicodeNormalization]

def encodeStringRaw (s : String) : List UInt8 :=
  let bytes := utf8 (normalizeText s)
  tagString :: (lengthLe32 bytes.length ++ bytes)

/-- A list element carries its length but no tag: the list is homogeneous. -/
def encodeItem (item : String) : List UInt8 :=
  let bytes := utf8 (normalizeText item)
  lengthLe32 bytes.length ++ bytes

mutual
def encodeValue (value : AttributeValue) : List UInt8 :=
  match value with
  | .string s => encodeStringRaw s
  | .i64 n => tagI64 :: (littleEndian 4 8 ++ littleEndian 8 n.toUInt64.toNat)
  | .bool b => tagBool :: (littleEndian 4 1 ++ [b.toUInt8])
  | .listOfString items =>
    let payload := lengthLe32 items.length ++ items.flatMap encodeItem
    tagListOfString :: (lengthLe32 payload.length ++ payload)
  | .record inner =>
    let payload := encodeMap inner
    tagRecord :: (lengthLe32 payload.length ++ payload)
termination_by structural value

/-- Keys and values of a map in its own order, with nothing between them. -/
def encodeMap (entries : AttributeEntries) : List UInt8 :=
  match entries with
  | [] => []
  | (key, value) :: rest => encodeStringRaw key ++ encodeValue value ++ encodeMap rest
termination_by structural entries
end

/-- Canonicalize an attribute set under the given version. -/
def canonicalize (_version : CanonicalizationVersion) (attrs : AttributeSet) :
    Except CanonicalizationError (List UInt8) := do
  let normalized ← normalizeAttributes attrs
  return encodeMap normalized.entries

end KeyRack
