import KeyRack.Core.Error
import KeyRack.Lib.Parsing

/-!
# ECDSA signatures, raw and in DER

PKCS#11 returns a signature as `r || s`; other providers use a DER sequence of two
integers. The decoder's slice with the position in it is the part that is left.
-/
namespace KeyRack.Pkcs11

open Fallible Parsing

def encodeInteger (val : Bytes) : Bytes :=
  let start := (val.findIdx? (· != 0)).getD (val.length - 1)
  let trimmed := val.drop start
  let needsPad := trimmed.head?.any fun first => first &&& 0x80 != 0
  let len := trimmed.length + needsPad.toNat
  -- the length is cast to `u8`
  [0x02, UInt8.ofNat len] ++ (if needsPad then [0x00] else []) ++ trimmed

def rawToDer (raw : Bytes) (componentLen : Nat) : Except KeyRackError Bytes := do
  refuseIf (raw.length ≠ componentLen * 2) (.provider
    s!"expected {componentLen * 2} bytes for raw ECDSA sig, got {raw.length}")
  let rEnc := encodeInteger (raw.take componentLen)
  let sEnc := encodeInteger (raw.drop componentLen)
  return [0x30, UInt8.ofNat (rEnc.length + sEnc.length)] ++ rEnc ++ sEnc

def readInteger (padTo : Nat) : ReaderOf UInt8 KeyRackError Bytes
  | 0x02 :: len :: der => do
    refuseIf (len.toNat > der.length) (.provider "truncated DER integer")
    let bytes := der.take len.toNat
    -- the leading zero of a positive encoding
    let bytes := if bytes.length > 1 ∧ bytes.head? = some 0x00 then bytes.drop 1 else bytes
    refuseIf (bytes.length > padTo) (.provider "DER integer too large for curve")
    return (List.replicate (padTo - bytes.length) 0 ++ bytes, der.drop len.toNat)
  | [0x02] => .error (.provider "truncated DER")
  | _ => .error (.provider "expected INTEGER tag in DER")

def derToRaw (der : Bytes) (componentLen : Nat) : Except KeyRackError Bytes := do
  refuseIf (der.length < 6 ∨ der.head? ≠ some 0x30) (.provider "invalid DER ECDSA signature")
  -- the tag and the length of the sequence are skipped
  let (r, der) ← (readInteger componentLen).run (der.drop 2)
  let (s, _) ← (readInteger componentLen).run der
  return r ++ s

end KeyRack.Pkcs11
