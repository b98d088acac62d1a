import KeyRack.Core.Lid
import KeyRack.Lib.Octets

/-!
# TTLV items

The items of a KMIP message: a tag of three bytes, a type, a length of four bytes and the
value, padded to a multiple of eight bytes. The encoder appends to a buffer and writes the
length of a structure when its items are written; the decoder takes items off the front of a
slice. Taking more bytes than there are is a panic. Recursion has a budget, which a slice
never uses up.
-/
namespace KeyRack.Kmip

open Fallible Framing

inductive TtlvType where
  | struct
  | integer
  | longInteger
  | bigInteger
  | enumeration
  | boolean
  | textString
  | byteString
  | dateTime
  | interval
  deriving DecidableEq, Repr

namespace TtlvType

def toU8 : TtlvType → UInt8
  | .struct => 0x01
  | .integer => 0x02
  | .longInteger => 0x03
  | .bigInteger => 0x04
  | .enumeration => 0x05
  | .boolean => 0x06
  | .textString => 0x07
  | .byteString => 0x08
  | .dateTime => 0x09
  | .interval => 0x0A

def fromU8 : UInt8 → Option TtlvType
  | 0x01 => some .struct
  | 0x02 => some .integer
  | 0x03 => some .longInteger
  | 0x04 => some .bigInteger
  | 0x05 => some .enumeration
  | 0x06 => some .boolean
  | 0x07 => some .textString
  | 0x08 => some .byteString
  | 0x09 => some .dateTime
  | 0x0A => some .interval
  | _ => none

end TtlvType

mutual
inductive TtlvItem where
  | mk (tag : UInt32) (typ : TtlvType) (value : TtlvValue)

inductive TtlvValue where
  | struct (children : List TtlvItem)
  | integer (v : Int32)
  | longInteger (v : Int64)
  | enumeration (v : UInt32)
  | boolean (v : Bool)
  | textString (s : String)
  | byteString (b : Bytes)
end

namespace TtlvItem

def tag : TtlvItem → UInt32
  | .mk tag _ _ => tag

def value : TtlvItem → TtlvValue
  | .mk _ _ value => value

/-- The first child with this tag. -/
def find (item : TtlvItem) (tag : UInt32) : Option TtlvItem :=
  match item.value with
  | .struct children => children.find? fun child => child.tag == tag
  | _ => none

end TtlvItem

/-! ### Encoding -/

def padLen (len : Nat) : Nat := (8 - len % 8) % 8

/-- Overwrite the bytes at a position. -/
def copyAt (buf : Bytes) (position : Nat) (bytes : Bytes) : Bytes :=
  buf.take position ++ bytes ++ buf.drop (position + bytes.length)

/-- A string behind its type and its length, which is cast to `u32`, with its padding. -/
def putString (typ : TtlvType) (bytes : Bytes) : Bytes :=
  [typ.toU8] ++ bigEndian 4 (bytes.length % 2 ^ 32) ++ bytes ++
    List.replicate (padLen bytes.length) 0

mutual
def encodeItem (buf : Bytes) (item : TtlvItem) : Bytes :=
  match item with
  | .mk tag _ value => encodeValue (buf ++ bigEndian 3 tag.toNat) value
termination_by structural item

/-- What follows the tag; the type is that of the value. -/
def encodeValue (buf : Bytes) (value : TtlvValue) : Bytes :=
  match value with
  | .struct children =>
    let buf := buf ++ [TtlvType.struct.toU8]
    let lenPos := buf.length
    -- a placeholder, overwritten when the children are there
    let buf := buf ++ bigEndian 4 0
    let start := buf.length
    let buf := encodeItems buf children
    let contentLen := buf.length - start
    copyAt buf lenPos (bigEndian 4 (contentLen % 2 ^ 32))
  | .integer v =>
    buf ++ [TtlvType.integer.toU8] ++ bigEndian 4 4 ++ bigEndian 4 v.toUInt32.toNat ++ bigEndian 4 0
  | .longInteger v =>
    buf ++ [TtlvType.longInteger.toU8] ++ bigEndian 4 8 ++ bigEndian 8 v.toUInt64.toNat
  | .enumeration v =>
    buf ++ [TtlvType.enumeration.toU8] ++ bigEndian 4 4 ++ bigEndian 4 v.toNat ++ bigEndian 4 0
  | .boolean v => buf ++ [TtlvType.boolean.toU8] ++ bigEndian 4 8 ++ bigEndian 8 v.toNat
  | .textString s => buf ++ putString .textString (utf8 s)
  | .byteString b => buf ++ putString .byteString b
termination_by structural value

def encodeItems (buf : Bytes) (items : List TtlvItem) : Bytes :=
  match items with
  | [] => buf
  | item :: items => encodeItems (encodeItem buf item) items
termination_by structural items
end

def encode (item : TtlvItem) : Bytes := encodeItem [] item

/-! ### Decoding -/

inductive DecodeError where
  | refused (message : String)
  | panicked
  -- not an outcome of the source
  | outOfFuel
  deriving DecidableEq, Repr

/-- Take bytes off the front; a slice that is too short panics. -/
def getBytes (n : Nat) (buf : Bytes) : Except DecodeError (Bytes × Bytes) :=
  if buf.length < n then .error .panicked else .ok (buf.take n, buf.drop n)

def advance (n : Nat) (buf : Bytes) : Except DecodeError Bytes :=
  if buf.length < n then .error .panicked else .ok (buf.drop n)

def hexDigitUpper (n : Nat) : Char := if n < 10 then Char.ofNat (48 + n) else Char.ofNat (55 + n)

def unknownType (byte : UInt8) : String :=
  "unknown TTLV type: 0x" ++
    String.ofList [hexDigitUpper (byte.toNat / 16), hexDigitUpper (byte.toNat % 16)]

structure Header where
  tag : UInt32
  typ : TtlvType
  length : Nat

/-- The length of the value with its padding; structures have none. -/
def Header.padded (header : Header) : Nat :=
  if header.typ = .struct then header.length else header.length + padLen header.length

/-- The eight bytes in front of a value, which must be in the slice. -/
def readHeader (buf : Bytes) : Except DecodeError (Header × Bytes) := do
  refuseIf (buf.length < 8) (.refused "buffer too short for TTLV header")
  let (tag, buf) ← getBytes 3 buf
  let (typeByte, buf) ← getBytes 1 buf
  let typ ← okOr (TtlvType.fromU8 (typeByte.headD 0)) (.refused (unknownType (typeByte.headD 0)))
  let (length, buf) ← getBytes 4 buf
  let header : Header := ⟨UInt32.ofNat (ofBigEndian tag), typ, ofBigEndian length⟩
  let (length, padded, remaining) := (header.length, header.padded, buf.length)
  refuseIf (remaining < padded) (.refused
    (s!"buffer underflow: need {padded} bytes (value {length} + padding), have " ++
      toString remaining))
  return (header, buf)

/-- A number of four bytes and the padding behind it. -/
def readWord (buf : Bytes) : Except DecodeError (Nat × Bytes) := do
  let (word, buf) ← getBytes 4 buf
  let buf ← advance (padLen 4) buf
  return (ofBigEndian word, buf)

def readString (length : Nat) (buf : Bytes) : Except DecodeError (Bytes × Bytes) := do
  let (data, buf) ← getBytes length buf
  let buf ← advance (padLen length) buf
  return (data, buf)

/-- Any value but a structure. Numbers take their own size, whatever was declared. -/
def readScalar (typ : TtlvType) (length : Nat) (buf : Bytes) :
    Except DecodeError (TtlvValue × Bytes) :=
  match typ with
  | .integer | .interval => do
    let (v, buf) ← readWord buf
    return (.integer (UInt32.ofNat v).toInt32, buf)
  | .longInteger | .dateTime => do
    let (v, buf) ← getBytes 8 buf
    return (.longInteger (UInt64.ofNat (ofBigEndian v)).toInt64, buf)
  | .bigInteger | .byteString => do
    let (data, buf) ← readString length buf
    return (.byteString data, buf)
  | .enumeration => do
    let (v, buf) ← readWord buf
    return (.enumeration (UInt32.ofNat v), buf)
  | .boolean => do
    let (v, buf) ← getBytes 8 buf
    return (.boolean (ofBigEndian v != 0), buf)
  | .textString => do
    let (data, buf) ← readString length buf
    let s ← okOr (String.fromUTF8? ⟨data.toArray⟩) (.refused "invalid UTF-8")
    return (.textString s, buf)
  -- a structure is read item by item
  | .struct => .error .outOfFuel

mutual
def decodeItem (fuel : Nat) (buf : Bytes) : Except DecodeError (TtlvItem × Bytes) :=
  match fuel with
  | 0 => .error .outOfFuel
  | fuel + 1 => do
    let (header, buf) ← readHeader buf
    if header.typ = .struct then
      let (children, buf) ← decodeChildren fuel (buf.length - header.length) buf
      return (.mk header.tag .struct (.struct children), buf)
    else
      let (value, buf) ← readScalar header.typ header.length buf
      return (.mk header.tag header.typ value, buf)
termination_by structural fuel

/-- The loop of a structure: items are read while more than `stop` bytes remain. -/
def decodeChildren (fuel stop : Nat) (buf : Bytes) : Except DecodeError (List TtlvItem × Bytes) :=
  match fuel with
  | 0 => .error .outOfFuel
  | fuel + 1 =>
    if buf.length > stop then do
      let (child, buf) ← decodeItem fuel buf
      let (children, buf) ← decodeChildren fuel stop buf
      return (child :: children, buf)
    else .ok ([], buf)
termination_by structural fuel
end

def decode (buf : Bytes) : Except DecodeError (TtlvItem × Bytes) :=
  decodeItem (2 * buf.length + 1) buf

end KeyRack.Kmip
