import KeyRack.Kmip.Ttlv

/-!
# TTLV items are read back

The decoder has budget enough for every slice, so it is given by the equations of its
recursion. It reads every item that the encoder writes, whatever follows it.
-/
namespace KeyRack.Kmip

open Fallible Framing List Nat TtlvType

/-! ### What the parts of the decoder take -/

variable {buf : Bytes}

theorem getBytes_eq_ok :
    getBytes n buf = .ok (taken, rest) ↔ buf = taken ++ rest ∧ taken.length = n := by
  unfold getBytes
  split
  next short =>
    simp only [reduceCtorEq, false_iff, not_and]
    rintro rfl
    simp only [length_append] at short
    omega
  next =>
    simp only [Except.ok.injEq, Prod.mk.injEq]
    constructor
    · rintro ⟨rfl, rfl⟩
      exact ⟨(take_append_drop n buf).symm, by simp; omega⟩
    · rintro ⟨rfl, rfl⟩
      exact ⟨take_left, drop_left⟩

theorem fromU8_toU8 (typ : TtlvType) : fromU8 typ.toU8 = some typ := by
  cases typ <;> rfl

theorem toU8_of_fromU8 (known : fromU8 byte = some typ) : typ.toU8 = byte := by
  unfold fromU8 at known
  split at known <;> cases known <;> rfl

/-- The bytes of a header. -/
def Header.bytes (header : Header) : Bytes :=
  bigEndian 3 header.tag.toNat ++ [header.typ.toU8] ++ bigEndian 4 header.length

@[simp] theorem Header.length_bytes (header : Header) : header.bytes.length = 8 := by
  simp [Header.bytes]

/-- A header is read off exactly its bytes, if its value is in the slice. -/
theorem readHeader_eq_ok :
    readHeader buf = .ok (header, rest) ↔ buf = header.bytes ++ rest ∧
      header.tag.toNat < 2 ^ 24 ∧ header.length < 2 ^ 32 ∧ header.padded ≤ rest.length := by
  simp only [readHeader, eq_ok, Prod.exists, Prod.mk.injEq, getBytes_eq_ok]
  constructor
  · rintro ⟨_, _, tag, _, ⟨rfl, three⟩, _, _, ⟨rfl, one⟩, _, known, length, _,
      ⟨rfl, four⟩, _, fits, rfl, rfl⟩
    obtain ⟨_, rfl⟩ := length_eq_one_iff.mp one
    have tagBound := ofBigEndian_lt tag
    have lengthBound := ofBigEndian_lt length
    have tagBytes := bigEndian_ofBigEndian tag
    have lengthBytes := bigEndian_ofBigEndian length
    rw [three] at tagBound tagBytes
    rw [four] at lengthBound lengthBytes
    have word : (UInt32.ofNat (ofBigEndian tag)).toNat = ofBigEndian tag :=
      UInt32.toNat_ofNat_of_lt' (lt_trans tagBound (by decide))
    refine ⟨?_, ?_, lengthBound, Nat.le_of_not_lt fits⟩
    · simp only [Header.bytes, word, tagBytes, lengthBytes, toU8_of_fromU8 known]
      simp
    · rw [word]
      exact tagBound
  · rintro ⟨rfl, tagBound, lengthBound, fits⟩
    have tagBack := @ofBigEndian_bigEndian 3 header.tag.toNat tagBound
    have lengthBack := @ofBigEndian_bigEndian 4 header.length lengthBound
    refine ⟨(), by simp, bigEndian 3 header.tag.toNat,
      [header.typ.toU8] ++ bigEndian 4 header.length ++ rest, ⟨by simp [Header.bytes], by simp⟩,
      [header.typ.toU8], bigEndian 4 header.length ++ rest, ⟨by simp, rfl⟩, header.typ,
      fromU8_toU8 header.typ, bigEndian 4 header.length, rest, ⟨rfl, by simp⟩, (), ?_, ?_, rfl⟩
    · simpa [tagBack, lengthBack] using fits
    · simp [tagBack, lengthBack]

variable {length : Nat}

theorem readString_eq_ok :
    readString length buf = .ok (data, rest) ↔ ∃ padding, buf = data ++ (padding ++ rest) ∧
      data.length = length ∧ padding.length = padLen length := by
  simp only [readString, eq_ok, Prod.exists, Prod.mk.injEq, getBytes_eq_ok]
  constructor
  · rintro ⟨_, behind, ⟨rfl, all⟩, _, advanced, rfl, rfl⟩
    unfold advance at advanced
    split at advanced
    next => cases advanced
    next enough =>
      cases advanced
      exact ⟨behind.take (padLen length), by simp, all, by simp; omega⟩
  · rintro ⟨padding, rfl, all, more⟩
    refine ⟨data, padding ++ rest, ⟨rfl, all⟩, rest, ?_, rfl, rfl⟩
    rw [advance, if_neg (by simp [more]), ← more, drop_left]

theorem readWord_eq_ok :
    readWord buf = .ok (n, rest) ↔ ∃ word, readString 4 buf = .ok (word, rest) ∧
      ofBigEndian word = n := by
  have same : readWord buf =
      readString 4 buf >>= fun read => pure (ofBigEndian read.1, read.2) := by
    simp only [readWord, readString, bind_assoc, pure_bind]
  simp only [same, eq_ok, Prod.exists, Prod.mk.injEq]
  constructor
  · rintro ⟨word, _, read, number, rfl⟩
    exact ⟨word, read, number⟩
  · rintro ⟨word, read, number⟩
    exact ⟨word, rest, read, number, rfl⟩

variable {value : TtlvValue}

theorem readScalar_shrinks
    (read : readScalar typ length buf = .ok (value, rest)) : rest.length ≤ buf.length := by
  cases typ with
  | struct => cases read
  | integer | interval | enumeration =>
    simp only [readScalar, eq_ok, Prod.exists, Prod.mk.injEq, readWord_eq_ok, readString_eq_ok]
      at read
    obtain ⟨_, _, ⟨_, ⟨_, rfl, _⟩, _⟩, _, rfl⟩ := read
    rw [length_append, length_append]
    omega
  | longInteger | dateTime | boolean =>
    simp only [readScalar, eq_ok, Prod.exists, Prod.mk.injEq, getBytes_eq_ok] at read
    obtain ⟨_, _, ⟨rfl, _⟩, _, rfl⟩ := read
    simp
  | bigInteger | byteString =>
    simp only [readScalar, eq_ok, Prod.exists, Prod.mk.injEq, readString_eq_ok] at read
    obtain ⟨_, _, ⟨_, rfl, _⟩, _, rfl⟩ := read
    rw [length_append, length_append]
    omega
  | textString =>
    simp only [readScalar, eq_ok, Prod.exists, Prod.mk.injEq, readString_eq_ok] at read
    obtain ⟨_, _, ⟨_, rfl, _⟩, _, _, _, rfl⟩ := read
    rw [length_append, length_append]
    omega

/-! ### The budget -/

theorem decode_shrinks (fuel : Nat) :
    (∀ buf item rest, decodeItem fuel buf = .ok (item, rest) → rest.length + 8 ≤ buf.length) ∧
    ∀ stop buf children rest, decodeChildren fuel stop buf = .ok (children, rest) →
      rest.length ≤ buf.length := by
  induction fuel with
  | zero => exact ⟨nofun, nofun⟩
  | succ _ ih =>
    obtain ⟨items, loops⟩ := ih
    constructor
    · intro buf _ rest decoded
      simp only [decodeItem, bind_eq_ok, Prod.exists] at decoded
      obtain ⟨_, behind, read, decoded⟩ := decoded
      obtain ⟨rfl, -⟩ := readHeader_eq_ok.mp read
      have shorter : rest.length ≤ behind.length := by
        split at decoded
        · simp only [eq_ok, Prod.exists, Prod.mk.injEq] at decoded
          obtain ⟨_, _, looped, -, rfl⟩ := decoded
          exact loops _ _ _ _ looped
        · simp only [eq_ok, Prod.exists, Prod.mk.injEq] at decoded
          obtain ⟨_, _, scalar, -, rfl⟩ := decoded
          exact readScalar_shrinks scalar
      simp only [length_append, Header.length_bytes]
      omega
    · intro _ _ _ _ decoded
      simp only [decodeChildren] at decoded
      split at decoded
      · simp only [eq_ok, Prod.exists, Prod.mk.injEq] at decoded
        obtain ⟨_, _, first, _, _, second, -, rfl⟩ := decoded
        have one := items _ _ _ first
        have others := loops _ _ _ _ second
        omega
      · cases decoded
        exact le_refl _

/-- More budget than twice the bytes changes nothing. -/
theorem decode_fuel (fuel : Nat) :
    (∀ more buf, 2 * buf.length < fuel → 2 * buf.length < more →
      decodeItem fuel buf = decodeItem more buf) ∧
    ∀ more stop buf, 2 * buf.length + 1 < fuel → 2 * buf.length + 1 < more →
      decodeChildren fuel stop buf = decodeChildren more stop buf := by
  induction fuel with
  | zero =>
    constructor
    · nofun
    · nofun
  | succ fuel ih =>
    obtain ⟨items, loops⟩ := ih
    constructor
    · intro more buf enough enough'
      obtain ⟨more, rfl⟩ := exists_eq_succ_of_ne_zero (ne_of_gt (zero_lt_of_lt enough'))
      simp only [decodeItem]
      cases read : readHeader buf with
      | error => rfl
      | ok pair =>
        obtain ⟨header, behind⟩ := pair
        obtain ⟨rfl, -⟩ := readHeader_eq_ok.mp read
        simp only [length_append, Header.length_bytes] at enough enough'
        have same := loops more (behind.length - header.length) behind (by omega) (by omega)
        change (if _ then _ else _) = (if _ then _ else _)
        rw [same]
    · intro more stop buf _ enough'
      obtain ⟨more, rfl⟩ := exists_eq_succ_of_ne_zero (ne_of_gt (zero_lt_of_lt enough'))
      simp only [decodeChildren]
      split
      · rw [items more buf (by omega) (by omega)]
        cases first : decodeItem more buf with
        | error => rfl
        | ok pair =>
          obtain ⟨child, behind⟩ := pair
          have shorter := (decode_shrinks more).1 _ _ _ first
          have same := loops more stop behind (by omega) (by omega)
          change (decodeChildren fuel stop behind >>= fun rest => pure (child :: rest.1, rest.2)) =
            decodeChildren more stop behind >>= fun rest => pure (child :: rest.1, rest.2)
          rw [same]
      · rfl

/-- The loop of a structure. -/
def decodeLoop (stop : Nat) (buf : Bytes) : Except DecodeError (List TtlvItem × Bytes) :=
  decodeChildren (2 * buf.length + 2) stop buf

theorem decode_eq (buf : Bytes) : decode buf = (do
    let (header, buf) ← readHeader buf
    if header.typ = .struct then
      let (children, buf) ← decodeLoop (buf.length - header.length) buf
      return (.mk header.tag .struct (.struct children), buf)
    else
      let (value, buf) ← readScalar header.typ header.length buf
      return (.mk header.tag header.typ value, buf)) := by
  rw [decode]
  simp only [decodeItem]
  cases read : readHeader buf with
  | error => rfl
  | ok pair =>
    obtain ⟨header, behind⟩ := pair
    obtain ⟨rfl, -⟩ := readHeader_eq_ok.mp read
    have same := (decode_fuel (2 * (header.bytes ++ behind).length)).2 (2 * behind.length + 2)
      (behind.length - header.length) behind (by simp; omega) (by omega)
    change (if _ then _ else _) = (if _ then _ else _)
    rw [same]
    rfl

theorem decodeLoop_eq (stop : Nat) (buf : Bytes) : decodeLoop stop buf =
    if buf.length > stop then do
      let (child, buf) ← decode buf
      let (children, buf) ← decodeLoop stop buf
      return (child :: children, buf)
    else .ok ([], buf) := by
  change (if buf.length > stop then do
      let (child, buf') ← decodeItem (2 * buf.length + 1) buf
      let (children, buf') ← decodeChildren (2 * buf.length + 1) stop buf'
      return (child :: children, buf')
    else .ok ([], buf)) = _
  split
  · cases first : decodeItem (2 * buf.length + 1) buf with
    | error =>
      rw [decode, first]
      rfl
    | ok pair =>
      obtain ⟨child, behind⟩ := pair
      have shorter := (decode_shrinks _).1 _ _ _ first
      have same := (decode_fuel (2 * buf.length + 1)).2 (2 * behind.length + 2) stop behind
        (by omega) (by omega)
      rw [decode, first]
      change (decodeChildren (2 * buf.length + 1) stop behind >>=
        fun rest => pure (child :: rest.1, rest.2)) = _
      rw [same]
      rfl
  · rfl

/-! ### What the encoder writes -/

mutual
/-- The bytes of an item, one part after the other. -/
def itemBytes (item : TtlvItem) : Bytes :=
  match item with
  | .mk tag _ value => bigEndian 3 tag.toNat ++ valueBytes value
termination_by structural item

def valueBytes (value : TtlvValue) : Bytes :=
  match value with
  | .struct children =>
    [struct.toU8] ++ bigEndian 4 ((itemsBytes children).length % 2 ^ 32) ++ itemsBytes children
  | .integer v =>
    [integer.toU8] ++ bigEndian 4 4 ++ (bigEndian 4 v.toUInt32.toNat ++ bigEndian 4 0)
  | .longInteger v => [longInteger.toU8] ++ bigEndian 4 8 ++ bigEndian 8 v.toUInt64.toNat
  | .enumeration v =>
    [enumeration.toU8] ++ bigEndian 4 4 ++ (bigEndian 4 v.toNat ++ bigEndian 4 0)
  | .boolean v => [boolean.toU8] ++ bigEndian 4 8 ++ bigEndian 8 v.toNat
  | .textString s => putString .textString (utf8 s)
  | .byteString b => putString .byteString b
termination_by structural value

def itemsBytes (items : List TtlvItem) : Bytes :=
  match items with
  | [] => []
  | item :: items => itemBytes item ++ itemsBytes items
termination_by structural items
end

/-- The placeholder of a length is overwritten in its place. -/
theorem copyAt_placeholder (same : written.length = placeholder.length) :
    copyAt (before ++ placeholder ++ content) before.length written =
      before ++ written ++ content := by
  have front : (before ++ placeholder ++ content).take before.length = before := by
    rw [append_assoc, take_left]
  have back : (before ++ placeholder ++ content).drop (before.length + written.length) =
      content := by
    rw [same, ← length_append, drop_left]
  rw [copyAt, front, back]

mutual
/-- Appending to a buffer and going back to the lengths writes the bytes of the item. -/
theorem encodeItem_eq (buf : Bytes) (item : TtlvItem) :
    encodeItem buf item = buf ++ itemBytes item := by
  match item with
  | .mk tag typ value =>
    rw [encodeItem, encodeValue_eq, itemBytes, append_assoc]

theorem encodeValue_eq (buf : Bytes) (value : TtlvValue) :
    encodeValue buf value = buf ++ valueBytes value := by
  match value with
  | .struct children =>
    have content : (buf ++ [struct.toU8] ++ bigEndian 4 0 ++ itemsBytes children).length -
        (buf ++ [struct.toU8] ++ bigEndian 4 0).length = (itemsBytes children).length := by
      rw [length_append]
      omega
    simp only [encodeValue, encodeItems_eq, valueBytes, content]
    rw [copyAt_placeholder (by simp)]
    simp
  | .integer v | .longInteger v | .enumeration v | .boolean v | .textString v | .byteString v =>
    simp [encodeValue, valueBytes]

theorem encodeItems_eq (buf : Bytes) (items : List TtlvItem) :
    encodeItems buf items = buf ++ itemsBytes items := by
  match items with
  | [] => simp [encodeItems, itemsBytes]
  | item :: items =>
    rw [encodeItems, encodeItem_eq, encodeItems_eq, itemsBytes, append_assoc]
end

/-! ### The round trip -/

/-- The type under which a value is written. -/
def TtlvValue.typ : TtlvValue → TtlvType
  | .struct _ => .struct
  | .integer _ => .integer
  | .longInteger _ => .longInteger
  | .enumeration _ => .enumeration
  | .boolean _ => .boolean
  | .textString _ => .textString
  | .byteString _ => .byteString

mutual
/-- Tags of three bytes, types that match the values, and lengths of four bytes. -/
def TtlvItem.WellFormed (item : TtlvItem) : Prop :=
  match item with
  | .mk tag typ value => tag.toNat < 2 ^ 24 ∧ typ = value.typ ∧ value.WellFormed
termination_by structural item

def TtlvValue.WellFormed (value : TtlvValue) : Prop :=
  match value with
  | .struct children => (itemsBytes children).length < 2 ^ 32 ∧ WellFormedItems children
  | .textString s => (utf8 s).length < 2 ^ 32
  | .byteString b => b.length < 2 ^ 32
  | _ => True
termination_by structural value

def WellFormedItems (items : List TtlvItem) : Prop :=
  match items with
  | [] => True
  | item :: items => item.WellFormed ∧ WellFormedItems items
termination_by structural items
end

/-- A value that is read off its bytes is read with its header. -/
theorem decode_scalar (plain : typ ≠ .struct) (small : tag.toNat < 2 ^ 24) (short : length < 2 ^ 32)
    (padded : payload.length = length + padLen length)
    (read : readScalar typ length (payload ++ rest) = .ok (value, rest)) :
    decode (bigEndian 3 tag.toNat ++ ([typ.toU8] ++ bigEndian 4 length ++ payload) ++ rest) =
      .ok (.mk tag typ value, rest) := by
  have front : readHeader
      (bigEndian 3 tag.toNat ++ ([typ.toU8] ++ bigEndian 4 length ++ payload) ++ rest) =
        .ok (⟨tag, typ, length⟩, payload ++ rest) := by
    apply readHeader_eq_ok.mpr
    refine ⟨by simp [Header.bytes], small, short, ?_⟩
    rw [Header.padded, if_neg plain, length_append, padded]
    exact le_add_right _ _
  rw [decode_eq, front]
  change (if typ = .struct then _ else _) = _
  rw [if_neg plain, read]
  rfl

theorem readString_append (all : data.length = length) (more : padding.length = padLen length) :
    readString length (data ++ padding ++ rest) = .ok (data, rest) :=
  readString_eq_ok.mpr ⟨padding, append_assoc .., all, more⟩

theorem readWord_word (small : n < 2 ^ 32) (rest : Bytes) :
    readWord (bigEndian 4 n ++ bigEndian 4 0 ++ rest) = .ok (n, rest) :=
  readWord_eq_ok.mpr ⟨bigEndian 4 n, readString_append (by simp) (by simp [padLen]),
    ofBigEndian_bigEndian small⟩

/-- What is written of a value is read under its type. -/
theorem decode_value (small : tag.toNat < 2 ^ 24) (plain : value.typ ≠ .struct)
    (wellFormed : value.WellFormed) (rest : Bytes) :
    decode (bigEndian 3 tag.toNat ++ valueBytes value ++ rest) =
      .ok (.mk tag value.typ value, rest) := by
  cases value with
  | struct => exact absurd rfl plain
  | integer v =>
    apply decode_scalar plain small (by decide) (by simp [padLen])
    change (readWord _ >>= _) = _
    rw [readWord_word v.toUInt32.toNat_lt]
    change Except.ok (TtlvValue.integer (UInt32.ofNat v.toUInt32.toNat).toInt32, rest) = _
    rw [UInt32.ofNat_toNat]
    rfl
  | longInteger v =>
    apply decode_scalar plain small (by decide) (by simp [padLen])
    change (getBytes 8 _ >>= _) = _
    change Except.ok (TtlvValue.longInteger
      (UInt64.ofNat (ofBigEndian (bigEndian 8 v.toUInt64.toNat))).toInt64, rest) = _
    rw [ofBigEndian_bigEndian v.toUInt64.toNat_lt, UInt64.ofNat_toNat]
    rfl
  | enumeration v =>
    apply decode_scalar plain small (by decide) (by simp [padLen])
    change (readWord _ >>= _) = _
    rw [readWord_word v.toNat_lt]
    change Except.ok (TtlvValue.enumeration (UInt32.ofNat v.toNat), rest) = _
    rw [UInt32.ofNat_toNat]
  | boolean v =>
    apply decode_scalar plain small (by decide) (by simp [padLen])
    change (getBytes 8 _ >>= _) = _
    cases v <;> rfl
  | textString s =>
    have short : (utf8 s).length < 2 ^ 32 := wellFormed
    rw [valueBytes, putString, mod_eq_of_lt short, append_assoc _ (utf8 s)]
    apply decode_scalar plain small short (by simp)
    change (readString _ _ >>= _) = _
    rw [readString_append rfl (by simp)]
    change (okOr (String.fromUTF8? ⟨(utf8 s).toArray⟩) _ >>= _) = _
    rw [fromUTF8_utf8]
    rfl
  | byteString b =>
    have short : b.length < 2 ^ 32 := wellFormed
    rw [valueBytes, putString, mod_eq_of_lt short, append_assoc _ b]
    apply decode_scalar plain small short (by simp)
    change (readString _ _ >>= _) = _
    rw [readString_append rfl (by simp)]
    rfl

/-- A structure is read if its items are. -/
theorem decode_struct (small : tag.toNat < 2 ^ 24) (short : (itemsBytes children).length < 2 ^ 32)
    (looped : decodeLoop rest.length (itemsBytes children ++ rest) = .ok (children, rest)) :
    decode (bigEndian 3 tag.toNat ++ valueBytes (.struct children) ++ rest) =
      .ok (.mk tag .struct (.struct children), rest) := by
  have front : readHeader (bigEndian 3 tag.toNat ++ valueBytes (.struct children) ++ rest) =
      .ok (⟨tag, .struct, (itemsBytes children).length⟩, itemsBytes children ++ rest) := by
    apply readHeader_eq_ok.mpr
    refine ⟨?_, small, short, ?_⟩
    · rw [valueBytes, mod_eq_of_lt short]
      simp [Header.bytes]
    · simp [Header.padded]
  have stop : (itemsBytes children ++ rest).length - (itemsBytes children).length =
      rest.length := by
    rw [length_append]
    omega
  rw [decode_eq, front]
  change (decodeLoop ((itemsBytes children ++ rest).length - (itemsBytes children).length) _ >>=
    _) = _
  rw [stop, looped]
  rfl

theorem itemBytes_ne_nil (item : TtlvItem) : itemBytes item ≠ [] := by
  cases item
  simp [itemBytes, bigEndian, littleEndian]

mutual
theorem decode_itemBytes (item : TtlvItem) (wellFormed : item.WellFormed) (rest : Bytes) :
    decode (itemBytes item ++ rest) = .ok (item, rest) := by
  match item, wellFormed with
  | .mk tag typ value, ⟨small, typed, fits⟩ =>
    subst typed
    cases value with
    | struct children =>
      exact decode_struct small fits.1 (decodeLoop_itemsBytes children fits.2 rest)
    | _ => exact decode_value small (by simp [TtlvValue.typ]) fits rest

/-- The loop ends where the items do: it counts the bytes that follow them. -/
theorem decodeLoop_itemsBytes (items : List TtlvItem) (wellFormed : WellFormedItems items)
    (rest : Bytes) : decodeLoop rest.length (itemsBytes items ++ rest) = .ok (items, rest) := by
  match items, wellFormed with
  | [], _ => rw [decodeLoop_eq, itemsBytes, nil_append, if_neg (lt_irrefl _)]
  | item :: items, ⟨first, others⟩ =>
    have more : (itemsBytes (item :: items) ++ rest).length > rest.length := by
      have nonempty := length_pos_iff.mpr (itemBytes_ne_nil item)
      simp only [itemsBytes, length_append]
      omega
    rw [decodeLoop_eq, if_pos more, itemsBytes, append_assoc, decode_itemBytes item first]
    change (decodeLoop rest.length (itemsBytes items ++ rest) >>= _) = _
    rw [decodeLoop_itemsBytes items others]
    rfl
end

/-- Every item is read back from what the encoder writes of it, and what follows is left
    unread. -/
theorem decode_encode (item : TtlvItem) (wellFormed : item.WellFormed) (rest : Bytes) :
    decode (encode item ++ rest) = .ok (item, rest) := by
  rw [encode, encodeItem_eq, nil_append]
  exact decode_itemBytes item wellFormed rest

/-- A response with a status and, in a structure of its own, the identifier of a key. -/
def sampleResponse : TtlvItem :=
  .mk 0x42007B .struct (.struct
    [.mk 0x42007F .enumeration (.enumeration 0),
     .mk 0x42007C .struct (.struct
      [.mk 0x420094 .textString (.textString "key-7"), .mk 0x42000D .integer (.integer (-1))])])

theorem decode_encode_response :
    decode (encode sampleResponse ++ [0x42, 0x00]) = .ok (sampleResponse, [0x42, 0x00]) :=
  decode_encode sampleResponse
    ⟨by decide, rfl, by decide, ⟨by decide, rfl, trivial⟩,
      ⟨by decide, rfl, by decide,
        ⟨by decide, rfl, show (utf8 "key-7").length < 2 ^ 32 by decide +kernel⟩,
        ⟨by decide, rfl, trivial⟩, trivial⟩, trivial⟩
    [0x42, 0x00]

mutual
/-- Every part is padded, so an item fills whole words of eight bytes. -/
theorem itemBytes_aligned (item : TtlvItem) : 8 ∣ (itemBytes item).length := by
  match item with
  | .mk _ _ value =>
    have rest := valueBytes_aligned value
    simp only [itemBytes, length_append, length_bigEndian]
    omega

/-- The tag takes the first three bytes of the first word. -/
theorem valueBytes_aligned (value : TtlvValue) : (valueBytes value).length % 8 = 5 := by
  match value with
  | .struct children =>
    have inside := itemsBytes_aligned children
    simp only [valueBytes, length_append, length_singleton, length_bigEndian]
    omega
  | .textString _ | .byteString _ =>
    simp only [valueBytes, putString, padLen, length_append, length_singleton, length_bigEndian,
      length_replicate]
    omega
  | .integer _ | .longInteger _ | .enumeration _ | .boolean _ => simp [valueBytes]

theorem itemsBytes_aligned (items : List TtlvItem) : 8 ∣ (itemsBytes items).length := by
  match items with
  | [] => simp [itemsBytes]
  | item :: items =>
    rw [itemsBytes, length_append]
    exact Nat.dvd_add (itemBytes_aligned item) (itemsBytes_aligned items)
end

/-- **Framing**: an item of any depth is written in whole words of eight bytes, and no
    other item, whatever follows, begins with the same bytes. -/
theorem encode_framed (item : TtlvItem) : 8 ∣ (encode item).length ∧
    ∀ other rest rest', item.WellFormed → other.WellFormed →
      encode item ++ rest = encode other ++ rest' → item = other ∧ rest = rest' := by
  have written (item : TtlvItem) : encode item = itemBytes item := by
    rw [encode, encodeItem_eq, nil_append]
  constructor
  · rw [written]
    exact itemBytes_aligned item
  · intro other rest rest' first second same
    have read := decode_itemBytes item first rest
    rw [← written, same, written, decode_itemBytes other second] at read
    cases read
    exact ⟨rfl, rfl⟩

end KeyRack.Kmip
