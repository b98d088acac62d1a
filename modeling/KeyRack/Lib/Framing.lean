import Mathlib

/-!
# Self-delimiting byte encodings

Machine words, length prefixes and the unique splitting of concatenations. An
encoding `Splits` when the reader of a stream can tell where one value ends,
which is what concatenation without separators needs to stay injective.
-/
namespace Framing

variable {α β : Type}

/-- The `width` low octets of a number, least significant first. -/
def littleEndian : (width value : Nat) → List UInt8
  | 0, _ => []
  | width + 1, value => UInt8.ofNat (value % 256) :: littleEndian width (value / 256)

/-- The same octets, most significant first. -/
def bigEndian (width value : Nat) : List UInt8 := (littleEndian width value).reverse

@[simp] theorem length_littleEndian (width value : Nat) :
    (littleEndian width value).length = width := by
  induction width generalizing value with
  | zero => rfl
  | succ _ ih => simp [littleEndian, ih]

theorem littleEndian_inj (width m n : Nat) (hm : m < 256 ^ width) (hn : n < 256 ^ width)
    (same : littleEndian width m = littleEndian width n) : m = n := by
  induction width generalizing m n with
  | zero =>
    omega
  | succ _ ih =>
    simp only [littleEndian, List.cons.injEq] at same
    -- the first octet fixes the remainder, the others the quotient
    have low : m % 256 = n % 256 := by
      have octet := congrArg UInt8.toNat same.1
      simp only [UInt8.toNat_ofNat'] at octet
      omega
    have high : m / 256 = n / 256 := by
      apply ih _ _ _ _ same.2
      · exact Nat.div_lt_of_lt_mul (by rw [← Nat.pow_succ']; exact hm)
      · exact Nat.div_lt_of_lt_mul (by rw [← Nat.pow_succ']; exact hn)
    omega

/-- Values accepted by `P` are recognised at the front of any stream. -/
def Splits (P : α → Prop) (encode : α → List β) : Prop :=
  ∀ ⦃a b : α⦄ ⦃r s : List β⦄, P a → P b → encode a ++ r = encode b ++ s → a = b ∧ r = s

/-- A byte string behind its own length. -/
def prefixed (width : Nat) (bytes : List UInt8) : List UInt8 :=
  littleEndian width bytes.length ++ bytes

theorem prefixed_splits (width : Nat) :
    Splits (fun bytes : List UInt8 => bytes.length < 256 ^ width) (prefixed width) := by
  intro a b r s ha hb same
  simp only [prefixed, List.append_assoc] at same
  -- the length fields have one width, so they are equal, and then so are the payloads
  obtain ⟨lengths, rest⟩ := List.append_inj same (by simp)
  exact List.append_inj rest (littleEndian_inj width _ _ ha hb lengths)

/-- A list of nonempty self-delimiting pieces is determined by their concatenation. -/
theorem Splits.flatMap_inj (splits : Splits P encode)
    (nonempty : ∀ a, P a → encode a ≠ []) (xs ys : List α) (hx : ∀ x ∈ xs, P x) (hy : ∀ y ∈ ys, P y)
    (same : xs.flatMap encode = ys.flatMap encode) : xs = ys := by
  induction xs generalizing ys with
  | nil =>
    cases ys with
    | nil => rfl
    | cons y =>
      have empty : encode y = [] := by
        exact (List.append_eq_nil_iff.mp same.symm).1
      exact absurd empty (nonempty y (hy y (by simp)))
  | cons x _ ih =>
    cases ys with
    | nil =>
      have empty : encode x = [] := by
        exact (List.append_eq_nil_iff.mp same).1
      exact absurd empty (nonempty x (hx x (by simp)))
    | cons y ys =>
      obtain ⟨rfl, rest⟩ := splits (hx x (by simp)) (hy y (by simp)) same
      rw [ih ys (fun z hz => hx z (by simp [hz])) (fun z hz => hy z (by simp [hz])) rest]

end Framing
