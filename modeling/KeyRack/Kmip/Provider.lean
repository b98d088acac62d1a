import KeyRack.Core.Error
import KeyRack.Kmip.Ttlv
import KeyRack.Lib.Parsing

/-!
# Encryption by a KMIP server

The server chooses a nonce and a tag; both go into the ciphertext's blob, behind their lengths.
A request is its operation and its payload; the envelope around them and the connection are the
`send` of the provider, which returns the parsed response.
-/
namespace KeyRack.Kmip

open Fallible Parsing

namespace Tag

def cryptographicParameters : UInt32 := 0x42002B
def uniqueId : UInt32 := 0x420094
def data : UInt32 := 0x4200C2
def ivCounterNonce : UInt32 := 0x42003D
def authenticatedEncryptionTag : UInt32 := 0x4200FF
def authenticatedEncryptionAdditionalData : UInt32 := 0x4200FE

end Tag

structure KmipRequest where
  operation : UInt32
  payload : List TtlvItem

structure KmipResponse where
  resultStatus : UInt32
  resultMessage : Option String
  payload : Option TtlvItem

def TtlvItem.asBytes (item : TtlvItem) : Option Bytes :=
  match item.value with
  | .byteString b => some b
  | _ => none

def KmipResponse.bytes (resp : KmipResponse) (tag : UInt32) : Option Bytes := do
  let payload ← resp.payload
  let item ← payload.find tag
  item.asBytes

def byteString (tag : UInt32) (b : Bytes) : TtlvItem := .mk tag .byteString (.byteString b)

def aesGcmParameters : TtlvItem :=
  .mk Tag.cryptographicParameters .struct (.struct [
    .mk 0x420011 .enumeration (.enumeration 0x09), .mk 0x420028 .enumeration (.enumeration 0x03),
    .mk 0x4200CE .integer (.integer 16)])

def encryptRequest (uniqueId : String) (plaintext : Bytes) (ivNonce : Option Bytes)
    (aad : Bytes) : KmipRequest where
  operation := 0x1F
  payload := [.mk Tag.uniqueId .textString (.textString uniqueId), aesGcmParameters,
      byteString Tag.data plaintext] ++ (ivNonce.map (byteString Tag.ivCounterNonce)).toList ++
    (if aad.isEmpty then []
      else [byteString Tag.authenticatedEncryptionAdditionalData aad])

def decryptRequest (uniqueId : String) (ciphertext : Bytes) (ivNonce authTag : Option Bytes)
    (aad : Bytes) : KmipRequest where
  operation := 0x20
  payload := (encryptRequest uniqueId ciphertext ivNonce aad).payload ++
    (authTag.map (byteString Tag.authenticatedEncryptionTag)).toList

/-! ### Blobs -/

def blobVersion : UInt8 := 1

def frameBlob (nonce tag ciphertext : Bytes) : Except KeyRackError Bytes := do
  refuseIf (nonce.length > 255 ∨ tag.length > 255) (.provider (
    s!"KMIP Encrypt: nonce ({nonce.length} bytes) or tag ({tag.length} bytes) too long to frame"))
  return blobVersion :: UInt8.ofNat nonce.length :: nonce ++
    UInt8.ofNat tag.length :: tag ++ ciphertext

def malformed (detail : String) : KeyRackError :=
  .provider ("KMIP Decrypt: ciphertext is not a blob this provider produced: " ++ detail)

/-- A field behind its length. -/
def splitField (name : String) : ReaderOf UInt8 KeyRackError Bytes
  | [] => .error (malformed s!"no {name} length")
  | len :: rest => do
    refuseIf (rest.length < len.toNat) (malformed s!"{name} is shorter than its stated length")
    return rest.splitAt len.toNat

def unframeBlob : Bytes → Except KeyRackError (Bytes × Bytes × Bytes)
  | [] => .error (malformed "it is empty")
  | version :: rest => do
    refuseIf (version ≠ blobVersion) (malformed
      s!"unknown framing version {version} (this build writes {blobVersion})")
    let (nonce, rest) ← (splitField "nonce").run rest
    let (tag, ciphertext) ← (splitField "tag").run rest
    refuseIf (tag = []) (malformed "no authentication tag, so nothing binds the ciphertext")
    return (nonce, tag, ciphertext)

/-! ### Operations -/

/-- A number as `0x:02X` prints it. -/
def hexStatus (status : UInt32) : String :=
  (if status < 16 then "0" else "") ++ String.toUpper (String.ofList (Nat.toDigits 16 status.toNat))

def checkResponse (resp : KmipResponse) : Except KeyRackError Unit :=
  let msg := resp.resultMessage.getD "unknown error"
  refuseIf (resp.resultStatus ≠ 0) (.provider
    s!"KMIP operation failed (status=0x{hexStatus resp.resultStatus}): {msg}")

variable (send : KmipRequest → Except KeyRackError KmipResponse)

def encrypt (keyId : String) (plaintext aad : Bytes) : Except KeyRackError Bytes := do
  let resp ← send (encryptRequest keyId plaintext none aad)
  checkResponse resp
  refuseIf (resp.payload.isNone) (.provider "KMIP Encrypt: no payload in response")
  let ciphertext ← okOr (resp.bytes Tag.data) (.provider "KMIP Encrypt: no Data in response")
  let iv := (resp.bytes Tag.ivCounterNonce).getD []
  refuseIf (iv = []) (.provider ("KMIP Encrypt: no IVCounterNonce in response; the ciphertext " ++
    "could not be decrypted without the nonce it was produced under"))
  let tagBytes ← okOr (resp.bytes Tag.authenticatedEncryptionTag) (.provider
    ("KMIP Encrypt: no AuthenticatedEncryptionTag in response. AES-GCM without its tag is " ++
      "unauthenticated and cannot be decrypted; refusing rather than returning a ciphertext " ++
      "that only looks protected"))
  frameBlob iv tagBytes ciphertext

/-- The end of `decrypt`. -/
def decrypted (resp : KmipResponse) : Except KeyRackError Bytes := do
  checkResponse resp
  okOr (resp.bytes Tag.data) (.provider "KMIP Decrypt: no Data in response")

def decrypt (keyId : String) (ciphertext aad : Bytes) : Except KeyRackError Bytes := do
  let (iv, authTag, ct) ← unframeBlob ciphertext
  let resp ← send (decryptRequest keyId ct (some iv) (some authTag) aad)
  decrypted resp

end KeyRack.Kmip
