import KeyRack.Core.Error

/-!
# Encryption context

Pairs of strings that a caller supplies with a plaintext and again with its ciphertext.
Their values are opaque; only their hash is kept, and the same bytes are authenticated.
-/
namespace KeyRack

open Framing

def zeroContextHash : Digest := Vector.replicate 32 0

/-- Key-value pairs, in the order of their keys. -/
structure EncryptionContext where
  pairs : SortedMap String String
  deriving DecidableEq

namespace EncryptionContext

def new : EncryptionContext := ⟨.empty⟩

def isEmpty (context : EncryptionContext) : Bool := context.pairs.entries.isEmpty

/-- One pair, with the lengths of both sides cast to `u32`. -/
def pairBytes (pair : String × String) : Bytes :=
  lengthLe32 pair.1.utf8ByteSize ++ utf8 pair.1 ++ lengthLe32 pair.2.utf8ByteSize ++ utf8 pair.2

/-- The bytes that are authenticated. -/
def toAadBytes (context : EncryptionContext) : Bytes := context.pairs.entries.flatMap pairBytes

/-- The hash of the same bytes; an empty context has the zero hash. -/
def hash [Blake3] (context : EncryptionContext) : Digest :=
  if context.isEmpty then zeroContextHash else Blake3.hash context.toAadBytes

end EncryptionContext
end KeyRack
