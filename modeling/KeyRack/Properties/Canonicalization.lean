import KeyRack.Core.Canon

/-!
# Injectivity of the canonical encoding

Normalization leaves only NFC strings and never lets the encoded size exceed
its byte budget. Below that size no length is truncated at any depth, so every
tagged piece splits off a stream in one way, and the encoded map determines its
entries.
-/
namespace KeyRack

open Fallible Framing SortedMap List

private theorem lengthLe32_eq (length : Nat) (small : length < 2 ^ 32) :
    lengthLe32 length = littleEndian 4 length := by
  rw [lengthLe32, Nat.mod_eq_of_lt small]

/-- Behind the same tag, two payloads of representable length split alike. -/
private theorem payload_split (hp : p.length < 2 ^ 32) (hq : q.length < 2 ^ 32)
    (same : lengthLe32 p.length ++ p ++ r = lengthLe32 q.length ++ q ++ s) : p = q ∧ r = s := by
  rw [lengthLe32_eq _ hp, lengthLe32_eq _ hq] at same
  exact prefixed_splits 4 (by simpa using hp) (by simpa using hq) same

variable [UnicodeNormalization]

mutual
/-- Every string inside a value, names of nested records included, is in NFC. -/
def AttributeValue.Normal (value : AttributeValue) : Prop :=
  match value with
  | .string s => normalizeText s = s
  | .i64 _ | .bool _ => True
  | .listOfString items => ∀ item ∈ items, normalizeText item = item
  | .record entries => NormalEntries entries
termination_by structural value

def NormalEntries (entries : AttributeEntries) : Prop :=
  match entries with
  | [] => True
  | (key, value) :: rest => normalizeText key = key ∧ value.Normal ∧ NormalEntries rest
termination_by structural entries
end

theorem normalEntries_iff (entries : AttributeEntries) :
    NormalEntries entries ↔
      ∀ entry ∈ entries, normalizeText entry.1 = entry.1 ∧ entry.2.Normal := by
  induction entries with
  | nil => simp [NormalEntries]
  | cons _ _ ih => simp [NormalEntries, ih, and_assoc]

/-! ### What normalization guarantees -/

theorem length_encodeStringRaw (s : String) :
    (encodeStringRaw s).length = (normalizeText s).utf8ByteSize + 5 := by
  simp only [encodeStringRaw, lengthLe32, length_cons, length_append,
    length_littleEndian, length_utf8]
  omega

/-- An entry costs the same wherever a sorted insertion puts it. -/
private theorem length_encodeMap_insertEntry (key : String) (value : AttributeValue)
    (entries : AttributeEntries) (fresh : hasKey key entries = false) :
    (encodeMap (insertEntry key value entries)).length =
      (encodeStringRaw key).length + (encodeValue value).length + (encodeMap entries).length := by
  -- the encoded size is a sum over the entries, which a permutation keeps
  have sum (m : AttributeEntries) : (encodeMap m).length =
      (m.map fun entry => (encodeStringRaw entry.1).length + (encodeValue entry.2).length).sum := by
    induction m with
    | nil => rfl
    | cons _ _ ih =>
      simp only [encodeMap, length_append, map_cons, sum_cons, ih]
  rw [sum, sum, ((insertEntry_perm key value entries fresh).map _).sum_nat]
  rfl

private theorem texts_spec (items out : List String) (budget left : Nat)
    (returned : texts items budget = .ok (out, left)) :
    (∀ item ∈ out, normalizeText item = item) ∧
      (out.flatMap encodeItem).length + left ≤ budget := by
  induction items generalizing out budget with
  | nil =>
    cases returned
    simp
  | cons item _ ih =>
    simp only [texts, eq_ok] at returned
    obtain ⟨⟨_, _⟩, first, ⟨tail, _⟩, rest, same⟩ := returned
    cases same
    obtain ⟨_, rfl, _, rfl⟩ := text_eq_ok.mp first
    obtain ⟨fixed, _⟩ := ih tail _ rest
    constructor
    · intro x member
      rcases mem_cons.mp member with rfl | member
      · exact normalizeText_idem item
      · exact fixed x member
    · -- an item is charged one byte more than it takes
      have size : (encodeItem (normalizeText item)).length =
          (normalizeText item).utf8ByteSize + 4 := by
        simp [encodeItem, lengthLe32, Nat.add_comm]
      simp only [flatMap_cons, length_append, size]
      omega

/-- Normalized output is in NFC, and its encoded size was charged in full. -/
theorem normalize_spec :
    (∀ value depth budget out left, normalizeValue depth value budget = .ok (out, left) →
      out.Normal ∧ (encodeValue out).length + left ≤ budget) ∧
    ∀ input depth out budget result left,
      normalizeEntries depth input out budget = .ok (result, left) → NormalEntries out →
      NormalEntries result ∧
        (encodeMap result).length + left ≤ (encodeMap out).length + budget := by
  apply AttributeValue.induction
  case string =>
    intro s depth budget out left returned
    simp only [normalizeValue, eq_ok] at returned
    obtain ⟨⟨_, _⟩, first, same⟩ := returned
    cases same
    obtain ⟨_, rfl, _, rfl⟩ := text_eq_ok.mp first
    refine ⟨normalizeText_idem s, ?_⟩
    rw [encodeValue, length_encodeStringRaw, normalizeText_idem]
    omega
  case i64 | bool =>
    intro _ depth budget out left returned
    simp only [normalizeValue, eq_ok, charge_eq_ok] at returned
    obtain ⟨_, ⟨_, rfl⟩, same⟩ := returned
    cases same
    refine ⟨trivial, ?_⟩
    simp only [encodeValue, length_cons, length_append, length_littleEndian, length_nil]
    omega
  case listOfString =>
    intro _ depth budget out left returned
    simp only [normalizeValue, eq_ok, charge_eq_ok] at returned
    obtain ⟨_, ⟨_, rfl⟩, ⟨_, _⟩, inner, same⟩ := returned
    cases same
    obtain ⟨fixed, _⟩ := texts_spec _ _ _ _ inner
    refine ⟨fixed, ?_⟩
    simp only [encodeValue, lengthLe32, length_cons, length_append, length_littleEndian]
    omega
  case record =>
    intro _ ih depth budget out left returned
    simp only [normalizeValue, eq_ok, charge_eq_ok] at returned
    obtain ⟨_, ⟨_, rfl⟩, _, _, ⟨_, _⟩, inner, same⟩ := returned
    cases same
    obtain ⟨normal, bound⟩ := ih _ _ _ _ _ inner trivial
    refine ⟨normal, ?_⟩
    simp only [encodeMap, length_nil] at bound
    simp only [encodeValue, lengthLe32, length_cons, length_append, length_littleEndian]
    omega
  case nil =>
    intro depth out budget result left returned normal
    cases returned
    exact ⟨normal, le_refl _⟩
  case cons =>
    intro key _ rest ihValue ihRest _ out _ _ _ returned normal
    simp only [normalizeEntries, eq_ok, Bool.not_eq_true] at returned
    obtain ⟨⟨_, _⟩, first, _, fresh, ⟨value', _⟩, inner, tail⟩ := returned
    obtain ⟨_, rfl, _, rfl⟩ := text_eq_ok.mp first
    obtain ⟨valueNormal, valueBound⟩ := ihValue _ _ _ _ inner
    -- the entry goes into the output map before the rest is looked at
    have grown : NormalEntries (insertEntry (normalizeText key) value' out) := by
      rw [normalEntries_iff] at normal ⊢
      intro entry member
      rcases mem_insertEntry _ _ _ _ member with rfl | old
      · exact ⟨normalizeText_idem key, valueNormal⟩
      · exact normal entry old
    obtain ⟨resultNormal, bound⟩ := ihRest _ _ _ _ _ tail grown
    refine ⟨resultNormal, ?_⟩
    dsimp only at bound valueBound
    rw [length_encodeMap_insertEntry _ _ _ fresh, length_encodeStringRaw,
      normalizeText_idem] at bound
    omega

/-! ### Splitting the encoded stream -/

private theorem encodeStringRaw_split (hs : normalizeText s = s) (ht : normalizeText t = t)
    (shortS : (encodeStringRaw s).length < 2 ^ 32) (shortT : (encodeStringRaw t).length < 2 ^ 32)
    (same : encodeStringRaw s ++ r = encodeStringRaw t ++ r') : s = t ∧ r = r' := by
  rw [length_encodeStringRaw] at shortS shortT
  simp only [encodeStringRaw, hs, ht, cons_append, List.cons.injEq, true_and] at same
  rw [hs] at shortS
  rw [ht] at shortT
  obtain ⟨bytes, rest⟩ := payload_split (by simp; omega) (by simp; omega) same
  exact ⟨utf8_inj bytes, rest⟩

/-- Each item is at most as long as the concatenation it is part of. -/
private theorem length_encodeItem_le {items : List String}
    (member : item ∈ items) : (encodeItem item).length ≤ (items.flatMap encodeItem).length :=
  (sublist_flatten_of_mem (mem_map_of_mem member)).length_le

private theorem listOfString_inj (xs ys : List String)
    (hx : ∀ item ∈ xs, normalizeText item = item) (hy : ∀ item ∈ ys, normalizeText item = item)
    (shortX : (xs.flatMap encodeItem).length < 2 ^ 32)
    (shortY : (ys.flatMap encodeItem).length < 2 ^ 32)
    (same : xs.flatMap encodeItem = ys.flatMap encodeItem) : xs = ys := by
  have splits : Splits (fun s => normalizeText s = s ∧ (encodeItem s).length < 2 ^ 32)
      encodeItem := by
    rintro a b r s ⟨ha, shortA⟩ ⟨hb, shortB⟩ eq
    simp only [encodeItem, ha, hb, length_append] at eq shortA shortB
    obtain ⟨bytes, rest⟩ := payload_split (by omega) (by omega) eq
    exact ⟨utf8_inj bytes, rest⟩
  have nonempty (s : String) : encodeItem s ≠ [] := by
    simp [encodeItem, lengthLe32, littleEndian]
  apply splits.flatMap_inj (fun s _ => nonempty s) xs ys _ _ same
  · exact fun x member => ⟨hx x member, (length_encodeItem_le member).trans_lt shortX⟩
  · exact fun y member => ⟨hy y member, (length_encodeItem_le member).trans_lt shortY⟩

attribute [local simp] tagString tagI64 tagBool tagListOfString tagRecord in
/-- A value in NFC whose encoding has a representable length splits off any
    stream; entries in NFC of representable total length are determined by it. -/
theorem encode_split :
    (∀ v : AttributeValue, ∀ (w : AttributeValue) (r s : List UInt8), v.Normal → w.Normal →
      (encodeValue v).length < 2 ^ 32 → (encodeValue w).length < 2 ^ 32 →
      encodeValue v ++ r = encodeValue w ++ s → v = w ∧ r = s) ∧
    ∀ m : AttributeEntries, ∀ n : AttributeEntries, NormalEntries m → NormalEntries n →
      (encodeMap m).length < 2 ^ 32 → (encodeMap n).length < 2 ^ 32 →
      encodeMap m = encodeMap n → m = n := by
  apply AttributeValue.induction
  case string =>
    intro x w r s hv hw shortV shortW same
    cases w with
    | string =>
      obtain ⟨rfl, rest⟩ := encodeStringRaw_split hv hw shortV shortW same
      exact ⟨rfl, rest⟩
    -- values of two kinds differ in their first byte
    | i64 | bool | listOfString | record =>
      simp [encodeValue, encodeStringRaw] at same
  case i64 =>
    intro x w r s hv hw shortV shortW same
    cases w with
    | i64 y =>
      simp only [encodeValue, cons_append, List.cons.injEq, true_and] at same
      obtain ⟨words, rest⟩ := append_inj same (by simp)
      have word := littleEndian_inj 8 _ _ x.toUInt64.toNat_lt y.toUInt64.toNat_lt
        (append_cancel_left words)
      have number : x = y := by
        cases x; cases y
        exact congrArg Int64.ofUInt64 (UInt64.toNat_inj.mp word)
      exact ⟨by rw [number], rest⟩
    | string | bool | listOfString | record =>
      simp [encodeValue, encodeStringRaw] at same
  case bool =>
    intro x w r s hv hw shortV shortW same
    cases w with
    | bool y =>
      simp only [encodeValue, cons_append, append_assoc, List.cons.injEq, true_and,
        append_cancel_left_eq, nil_append] at same
      refine ⟨?_, same.2⟩
      cases x <;> cases y <;> first | rfl | exact absurd same.1 (by decide)
    | string | i64 | listOfString | record =>
      simp [encodeValue, encodeStringRaw] at same
  case listOfString =>
    intro x w r s hv hw shortV shortW same
    cases w with
    | listOfString y =>
      simp only [encodeValue, cons_append, List.cons.injEq, true_and] at same
      simp only [encodeValue, lengthLe32, length_cons, length_append,
        length_littleEndian] at shortV shortW
      obtain ⟨payload, rest⟩ := payload_split
        (by simp only [lengthLe32, length_append, length_littleEndian]; omega)
        (by simp only [lengthLe32, length_append, length_littleEndian]; omega) same
      -- behind the count, which is not needed, stand the items
      obtain ⟨_, items⟩ := append_inj payload (by simp [lengthLe32])
      rw [listOfString_inj x y hv hw (by omega) (by omega) items]
      exact ⟨rfl, rest⟩
    | string | i64 | bool | record =>
      simp [encodeValue, encodeStringRaw] at same
  case record =>
    intro x ih w r s hv hw shortV shortW same
    cases w with
    | record y =>
      simp only [encodeValue, cons_append, List.cons.injEq, true_and] at same
      simp only [encodeValue, lengthLe32, length_cons, length_append,
        length_littleEndian] at shortV shortW
      obtain ⟨payload, rest⟩ := payload_split (by omega) (by omega) same
      rw [ih y hv hw (by omega) (by omega) payload]
      exact ⟨rfl, rest⟩
    | string | i64 | bool | listOfString =>
      simp [encodeValue, encodeStringRaw] at same
  case nil =>
    intro n _ _ _ _ same
    cases n with
    | nil => rfl
    | cons => simp [encodeMap, encodeStringRaw] at same
  case cons =>
    intro _ value rest ihValue ihRest n hm hn shortM shortN same
    cases n with
    | nil => simp [encodeMap, encodeStringRaw] at same
    | cons head rest' =>
      obtain ⟨_, value'⟩ := head
      obtain ⟨keyNormal, valueNormal, restNormal⟩ := hm
      obtain ⟨keyNormal', valueNormal', restNormal'⟩ := hn
      simp only [encodeMap, length_append] at shortM shortN
      simp only [encodeMap, append_assoc] at same
      -- the name splits off first, then the value, and the rest is the shorter map
      obtain ⟨rfl, afterKey⟩ :=
        encodeStringRaw_split keyNormal keyNormal' (by omega) (by omega) same
      obtain ⟨rfl, afterValue⟩ := ihValue value' _ _ valueNormal valueNormal' (by omega) (by omega)
        afterKey
      rw [ihRest rest' restNormal restNormal' (by omega) (by omega) afterValue]

theorem normalizeAttributes_spec (returned : normalizeAttributes attrs = .ok out) :
    NormalEntries out.entries ∧ (encodeMap out.entries).length ≤ maxIdentityBytes := by
  obtain ⟨_, returned⟩ := normalizeAttributes_eq_ok.mp returned
  simp only [normalizeMap, bind_eq_ok] at returned
  obtain ⟨_, _, inner⟩ := returned
  obtain ⟨normal, bound⟩ := normalize_spec.2 _ _ _ _ _ _ inner trivial
  simp only [encodeMap, length_nil] at bound
  exact ⟨normal, by omega⟩

/-! ### The lengths that are written -/

/-- The cast of a length to `u32` loses nothing. -/
def Untruncated (length : Nat) : Prop := length % 2 ^ 32 = length

mutual
/-- A value inside `depth` records: no record is nested deeper than the limit, and each
    length or count that is written for it is the true one. -/
def AttributeValue.Exact (depth : Nat) (value : AttributeValue) : Prop :=
  match value with
  | .string s => Untruncated (utf8 (normalizeText s)).length
  | .i64 _ | .bool _ => True
  | .listOfString items =>
    Untruncated items.length ∧
      Untruncated (lengthLe32 items.length ++ items.flatMap encodeItem).length ∧
      ∀ item ∈ items, Untruncated (utf8 (normalizeText item)).length
  | .record inner =>
    depth + 1 ≤ maxAttributeDepth ∧ Untruncated (encodeMap inner).length ∧
      ExactEntries (depth + 1) inner
termination_by structural value

def ExactEntries (depth : Nat) (entries : AttributeEntries) : Prop :=
  match entries with
  | [] => True
  | (key, value) :: rest =>
    Untruncated (utf8 (normalizeText key)).length ∧ value.Exact depth ∧ ExactEntries depth rest
termination_by structural entries
end

/-- **Canonical injectivity**: two accepted attribute sets have the same
    canonical bytes exactly when they normalize to the same attribute set. -/
theorem canonicalize_eq_iff (a b : AttributeSet) (bytesA bytesB : List UInt8)
    (okA : canonicalize .v2 a = .ok bytesA) (okB : canonicalize .v2 b = .ok bytesB) :
    bytesA = bytesB ↔ normalizeAttributes a = normalizeAttributes b := by
  simp only [canonicalize, eq_ok] at okA okB
  obtain ⟨_, returnedA, rfl⟩ := okA
  obtain ⟨_, returnedB, rfl⟩ := okB
  rw [returnedA, returnedB]
  constructor
  · intro same
    obtain ⟨normalA, _⟩ := normalizeAttributes_spec returnedA
    obtain ⟨normalB, _⟩ := normalizeAttributes_spec returnedB
    -- within the budget no length field wraps around
    have small : maxIdentityBytes < 2 ^ 32 := by decide
    have entries := encode_split.2 _ _ normalA normalB (by omega) (by omega) same
    rw [AttributeSet.ext entries]
  · intro same
    cases same
    rfl

/-- The set `{scope: {n: …}}`, as an example of nesting. -/
def scopedSet (n : Int64) : AttributeSet where
  entries := [("scope", .record [("n", .i64 n)])]
  sorted := by simp [Sorted]
  ordered := by simp [OrderedEntries, AttributeValue.Ordered, Sorted]

def scopedBytes (n : UInt8) : List UInt8 :=
  [1, 5, 0, 0, 0, 115, 99, 111, 112, 101, 5, 19, 0, 0, 0, 1, 1, 0, 0, 0, 110,
    2, 8, 0, 0, 0, n, 0, 0, 0, 0, 0, 0, 0]

omit [UnicodeNormalization] in
theorem canonicalize_eq_iff_scoped :
    (scopedBytes 7 = scopedBytes 8 ↔
      @normalizeAttributes asciiNormalization (scopedSet 7) =
        @normalizeAttributes asciiNormalization (scopedSet 8)) ∧ scopedBytes 7 ≠ scopedBytes 8 :=
  ⟨@canonicalize_eq_iff asciiNormalization (scopedSet 7) (scopedSet 8) (scopedBytes 7)
    (scopedBytes 8) (by decide) (by decide), by decide⟩

end KeyRack
