import KeyRack.Lib.Framing

/-!
# Machine words read back

The number that octets stand for, in both byte orders. Octets of one width and the
numbers below their bound determine each other.
-/
namespace Framing

/-- The number that octets stand for, least significant first. -/
def ofLittleEndian : List UInt8 → Nat
  | [] => 0
  | byte :: bytes => byte.toNat + 256 * ofLittleEndian bytes

/-- The same number, most significant octet first. -/
def ofBigEndian (bytes : List UInt8) : Nat := ofLittleEndian bytes.reverse

theorem ofLittleEndian_lt (bytes : List UInt8) : ofLittleEndian bytes < 256 ^ bytes.length := by
  induction bytes with
  | nil => simp [ofLittleEndian]
  | cons byte =>
    have low := byte.toNat_lt
    simp only [ofLittleEndian, List.length_cons, Nat.pow_succ]
    omega

theorem ofLittleEndian_littleEndian {width value : Nat} (bound : value < 256 ^ width) :
    ofLittleEndian (littleEndian width value) = value := by
  induction width generalizing value with
  | zero =>
    simp only [littleEndian, ofLittleEndian]
    omega
  | succ width ih =>
    have rest : value / 256 < 256 ^ width := by
      apply Nat.div_lt_of_lt_mul
      rw [← Nat.pow_succ']
      exact bound
    simp only [littleEndian, ofLittleEndian, ih rest, UInt8.toNat_ofNat']
    omega

theorem littleEndian_ofLittleEndian (bytes : List UInt8) :
    littleEndian bytes.length (ofLittleEndian bytes) = bytes := by
  induction bytes with
  | nil => rfl
  | cons byte bytes ih =>
    have low := byte.toNat_lt
    have remainder : (byte.toNat + 256 * ofLittleEndian bytes) % 256 = byte.toNat := by omega
    have quotient : (byte.toNat + 256 * ofLittleEndian bytes) / 256 = ofLittleEndian bytes := by
      omega
    simp only [List.length_cons, ofLittleEndian, littleEndian, remainder, quotient, ih]
    simp

@[simp] theorem length_bigEndian (width value : Nat) : (bigEndian width value).length = width := by
  simp [bigEndian]

theorem ofBigEndian_bigEndian {width value : Nat} (bound : value < 256 ^ width) :
    ofBigEndian (bigEndian width value) = value := by
  rw [ofBigEndian, bigEndian, List.reverse_reverse]
  exact ofLittleEndian_littleEndian bound

theorem ofBigEndian_lt (bytes : List UInt8) : ofBigEndian bytes < 256 ^ bytes.length := by
  have bound := ofLittleEndian_lt bytes.reverse
  rwa [List.length_reverse] at bound

theorem bigEndian_ofBigEndian (bytes : List UInt8) :
    bigEndian bytes.length (ofBigEndian bytes) = bytes := by
  have back := littleEndian_ofLittleEndian bytes.reverse
  rw [List.length_reverse] at back
  rw [bigEndian, ofBigEndian, back, List.reverse_reverse]

end Framing
