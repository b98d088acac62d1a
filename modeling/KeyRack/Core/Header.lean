import KeyRack.Core.EncryptionContext
import KeyRack.Lib.Octets

/-!
# Ciphertext header

The 80 bytes in front of every ciphertext, which name the key, its version and the hash
of the encryption context. The last two bytes are reserved: they are written as zero and
never read.
-/
namespace KeyRack

open Fallible Framing

/-- The ASCII bytes of `KRCK`. -/
def magic : Bytes := [0x4B, 0x52, 0x43, 0x4B]

def currentHeaderVersion : UInt16 := 1

def headerSize : Nat := 80

structure CiphertextHeader where
  headerVersion : UInt16
  lid : Lid
  keyVersion : UInt64
  encryptionContextHash : Digest
  deriving DecidableEq

/-- The bytes `start..stop` of a buffer. -/
def slice (buf : Bytes) (start stop : Nat) : Bytes := (buf.drop start).take (stop - start)

/-- A copy of 32 bytes. -/
def digestOf (bytes : Bytes) : Digest := Vector.ofFn fun i => bytes.getD i 0

namespace CiphertextHeader

/-- A header for a new ciphertext. -/
def new (lid : Lid) (keyVersion : UInt64) (encryptionContextHash : Digest) : CiphertextHeader where
  headerVersion := currentHeaderVersion
  lid
  keyVersion
  encryptionContextHash

/-- What a header stands for: its bytes up to the reserved ones. -/
def fields (header : CiphertextHeader) : Bytes :=
  magic ++ littleEndian 2 header.headerVersion.toNat ++ header.lid.bytes.toList ++
    littleEndian 8 header.keyVersion.toNat ++ header.encryptionContextHash.toList

def encode (header : CiphertextHeader) : Bytes := header.fields ++ [0, 0]

def decode (buf : Bytes) : Except KeyRackError CiphertextHeader := do
  let length := buf.length
  refuseIf (length < headerSize)
    (.provider s!"ciphertext too short for header: need {headerSize}, got {length}")
  refuseIf (slice buf 0 4 ≠ magic) (.provider "invalid ciphertext magic bytes")
  let headerVersion := UInt16.ofNat (ofLittleEndian (slice buf 4 6))
  refuseIf (headerVersion ≠ currentHeaderVersion)
    (.provider s!"unsupported header version: {headerVersion}")
  return {
    headerVersion
    lid := ⟨digestOf (slice buf 6 38)⟩
    keyVersion := UInt64.ofNat (ofLittleEndian (slice buf 38 46))
    encryptionContextHash := digestOf (slice buf 46 78) }

/-- The additional data of the encryption: the header and the caller's context. -/
def buildAad (header : CiphertextHeader) (ecAad : Bytes) : Bytes := header.encode ++ ecAad

def wrapPayload (header : CiphertextHeader) (payload : Bytes) : Bytes := header.encode ++ payload

def unwrapPayload (blob : Bytes) : Except KeyRackError (CiphertextHeader × Bytes) := do
  let header ← decode blob
  return (header, blob.drop headerSize)

end CiphertextHeader
end KeyRack
