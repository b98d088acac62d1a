import KeyRack.Core.Header

/-!
# Headers and contexts as additional data

What the header decoder accepts is a header of the current version, two bytes that it
does not read, and the payload. The additional data of an encryption determine the header
and the encryption context, as long as no length is cut to 32 bits.
-/
namespace KeyRack

open Fallible Framing List

/-! ### Fields of the header -/

theorem toList_digestOf (length : bytes.length = 32) : (digestOf bytes).toList = bytes := by
  apply ext_getElem
  · simp [length]
  · intro i _ second
    simp [digestOf, second]

namespace CiphertextHeader

@[simp] theorem length_fields (header : CiphertextHeader) : header.fields.length = 78 := by
  simp [fields, magic]

@[simp] theorem length_encode (header : CiphertextHeader) : header.encode.length = 80 := by
  simp [encode]

variable {header other : CiphertextHeader}

/-- The fields of a header determine it. -/
theorem fields_inj (same : header.fields = other.fields) : header = other := by
  obtain ⟨same, _⟩ := append_inj same (by simp)
  obtain ⟨same, versions⟩ := append_inj same (by simp)
  obtain ⟨same, _⟩ := append_inj same (by simp)
  obtain ⟨-, formats⟩ := append_inj same (by simp)
  have format := littleEndian_inj 2 _ _ header.headerVersion.toNat_lt other.headerVersion.toNat_lt
    formats
  have version := littleEndian_inj 8 _ _ header.keyVersion.toNat_lt other.keyVersion.toNat_lt
    versions
  cases header with | mk headerVersion lid keyVersion encryptionContextHash =>
  cases other with | mk headerVersion' lid' keyVersion' encryptionContextHash' =>
  cases lid
  simp_all [Vector.toList_inj, UInt16.toNat_inj, UInt64.toNat_inj]

theorem encode_inj (same : header.encode = other.encode) : header = other :=
  fields_inj (append_inj same (by simp)).1

/-- A buffer, cut where the decoder reads it. -/
theorem cut_eq (buf : Bytes) :
    buf = slice buf 0 4 ++ slice buf 4 6 ++ slice buf 6 38 ++ slice buf 38 46 ++
      slice buf 46 78 ++ slice buf 78 80 ++ buf.drop headerSize := by
  have next (start stop : Nat) (below : start ≤ stop) :
      slice buf start stop ++ buf.drop stop = buf.drop start := by
    have split := take_append_drop (stop - start) (buf.drop start)
    rwa [drop_drop, Nat.add_sub_cancel' below] at split
  simp only [append_assoc, headerSize]
  rw [next 78 80 (by decide), next 46 78 (by decide), next 38 46 (by decide),
    next 6 38 (by decide), next 4 6 (by decide), next 0 4 (by decide)]
  rfl

variable {buf : Bytes}

theorem length_slice (enough : headerSize ≤ buf.length) {start : Nat} (inside : stop ≤ headerSize) :
    (slice buf start stop).length = stop - start := by
  simp only [slice, length_take, length_drop]
  omega

/-- The header that is read stands at the front of the buffer. -/
theorem fields_read (enough : headerSize ≤ buf.length) (isMagic : slice buf 0 4 = magic) :
    buf = fields ⟨UInt16.ofNat (ofLittleEndian (slice buf 4 6)), ⟨digestOf (slice buf 6 38)⟩,
      UInt64.ofNat (ofLittleEndian (slice buf 38 46)), digestOf (slice buf 46 78)⟩ ++
      slice buf 78 80 ++ buf.drop headerSize := by
  have size {start stop : Nat} (inside : stop ≤ headerSize) :=
    @length_slice buf stop enough start inside
  have format : littleEndian 2 (UInt16.ofNat (ofLittleEndian (slice buf 4 6))).toNat =
      slice buf 4 6 := by
    have small := ofLittleEndian_lt (slice buf 4 6)
    have back := littleEndian_ofLittleEndian (slice buf 4 6)
    rw [size (by decide)] at small back
    rw [UInt16.toNat_ofNat_of_lt' small]
    exact back
  have keyVersion : littleEndian 8 (UInt64.ofNat (ofLittleEndian (slice buf 38 46))).toNat =
      slice buf 38 46 := by
    have small := ofLittleEndian_lt (slice buf 38 46)
    have back := littleEndian_ofLittleEndian (slice buf 38 46)
    rw [size (by decide)] at small back
    rw [UInt64.toNat_ofNat_of_lt' small]
    exact back
  have lid := @toList_digestOf (slice buf 6 38) (size (by decide))
  have hash := @toList_digestOf (slice buf 46 78) (size (by decide))
  simp only [fields, format, keyVersion, lid, hash, ← isMagic]
  exact cut_eq buf

/-- What the decoder accepts: a header of the current version, two bytes that are not
    read, and anything behind them. -/
theorem decode_eq_ok :
    decode buf = .ok header ↔ header.headerVersion = currentHeaderVersion ∧
      ∃ reserved payload, reserved.length = 2 ∧ buf = header.fields ++ reserved ++ payload := by
  simp only [decode, eq_ok, not_lt, not_not]
  constructor
  · rintro ⟨_, enough, _, isMagic, _, version, rfl⟩
    exact ⟨version, slice buf 78 80, buf.drop headerSize, length_slice enough (by decide),
      fields_read enough isMagic⟩
  · rintro ⟨version, reserved, payload, two, split⟩
    have enough : headerSize ≤ buf.length := by
      rw [split]
      simp only [headerSize, length_append, length_fields, two]
      omega
    have isMagic : slice buf 0 4 = magic := by simp [split, slice, fields, magic]
    have read := split.symm.trans (fields_read enough isMagic)
    simp only [append_assoc] at read
    have same := fields_inj (append_inj read (by simp)).1
    subst same
    exact ⟨(), enough, (), isMagic, (), version, rfl⟩

variable {blob payload : Bytes}

theorem unwrapPayload_eq_ok :
    unwrapPayload blob = .ok (header, payload) ↔ header.headerVersion = currentHeaderVersion ∧
      ∃ reserved, reserved.length = 2 ∧ blob = header.fields ++ reserved ++ payload := by
  simp only [unwrapPayload, eq_ok, Prod.mk.injEq]
  constructor
  · rintro ⟨_, decoded, rfl, rfl⟩
    obtain ⟨version, reserved, _, two, rfl⟩ := decode_eq_ok.mp decoded
    refine ⟨version, reserved, two, ?_⟩
    rw [drop_left' (by simp [two, headerSize])]
  · rintro ⟨version, reserved, two, rfl⟩
    refine ⟨header, decode_eq_ok.mpr ⟨version, reserved, payload, two, rfl⟩, rfl, ?_⟩
    exact drop_left' (by simp [two, headerSize])

theorem slice_reserved (two : reserved.length = 2) :
    slice (header.fields ++ reserved ++ payload) 78 80 = reserved := by
  rw [slice, append_assoc, drop_left' header.length_fields, take_left' two]

/-- Two packed blobs are equal only if their headers and payloads are. -/
theorem wrapPayload_inj (same : header.wrapPayload payload = other.wrapPayload payload') :
    header = other ∧ payload = payload' := by
  obtain ⟨headers, payloads⟩ := append_inj same (by simp)
  exact ⟨encode_inj headers, payloads⟩

/-- The decoder takes the blob for a header and a payload exactly when it is packed from
    them. -/
def Exact (blob : Bytes) : Prop :=
  ∀ (header : CiphertextHeader) (payload : Bytes), unwrapPayload blob = .ok (header, payload) ↔
    header.headerVersion = currentHeaderVersion ∧ blob = header.wrapPayload payload

/-- A blob with a header of the current version has zeros where the header is reserved. -/
def ReservedZero (blob : Bytes) : Prop :=
  headerSize ≤ blob.length → slice blob 0 4 = magic → slice blob 4 6 = littleEndian 2 1 →
    slice blob 78 80 = [0, 0]

theorem exact_of_reservedZero (zero : ReservedZero blob) : Exact blob := by
  intro header payload
  rw [unwrapPayload_eq_ok]
  constructor
  · rintro ⟨version, reserved, two, rfl⟩
    refine ⟨version, ?_⟩
    have none : reserved = [0, 0] := by
      rw [← @slice_reserved header payload reserved two]
      apply zero
      · simp only [headerSize, length_append, length_fields, two]
        omega
      · simp [slice, fields, magic]
      · simp [slice, fields, magic, version, currentHeaderVersion]
    rw [none, wrapPayload, encode]
  · rintro ⟨version, rfl⟩
    exact ⟨version, [0, 0], rfl, rfl⟩

theorem reservedZero_of_exact (exactly : Exact blob) : ReservedZero blob := by
  intro enough isMagic version
  have accepted : ∃ header, decode blob = .ok header := by
    simp only [decode, eq_ok]
    refine ⟨_, (), Nat.not_lt.mpr enough, (), not_not.mpr isMagic, (), ?_, rfl⟩
    rw [version]
    decide
  obtain ⟨header, decoded⟩ := accepted
  obtain ⟨current, reserved, payload, two, rfl⟩ := decode_eq_ok.mp decoded
  have taken : unwrapPayload (header.fields ++ reserved ++ payload) = .ok (header, payload) :=
    unwrapPayload_eq_ok.mpr ⟨current, reserved, two, rfl⟩
  have same := ((exactly header payload).mp taken).2
  rw [slice_reserved two]
  have fronts := (append_inj same (by simp [two])).1
  exact (append_inj fronts rfl).2

/-- A changed byte of the first 80 changes the header or has it refused, unless it is one
    of the two that are not read. -/
theorem set_changes_iff
    (accepted : unwrapPayload blob = .ok (header, payload)) (inside : i < headerSize)
    (changed : blob[i]? ≠ some byte) :
    (∀ other payload', unwrapPayload (blob.set i byte) = .ok (other, payload') → ∀ ecAad,
      other.buildAad ecAad ≠ header.buildAad ecAad) ↔ i < 78 := by
  obtain ⟨version, reserved, two, rfl⟩ := unwrapPayload_eq_ok.mp accepted
  constructor
  · intro differs
    by_contra late
    have written : (header.fields ++ reserved ++ payload).set i byte =
        header.fields ++ reserved.set (i - 78) byte ++ payload := by
      simp only [headerSize] at inside
      rw [set_append, set_append]
      simp only [length_append, length_fields, two, inside, late, if_true, if_false]
    have again : unwrapPayload ((header.fields ++ reserved ++ payload).set i byte) =
        .ok (header, payload) :=
      unwrapPayload_eq_ok.mpr ⟨version, reserved.set (i - 78) byte, by simp [two], written⟩
    exact differs header payload again [] rfl
  · intro early other _ taken _ same
    have written : (header.fields ++ reserved ++ payload).set i byte =
        header.fields.set i byte ++ reserved ++ payload := by
      rw [append_assoc, set_append, if_pos (by simpa using early), append_assoc]
    obtain ⟨-, _, _, parsed⟩ := unwrapPayload_eq_ok.mp taken
    have equal : other = header := encode_inj (append_inj same (by simp)).1
    rw [written, equal] at parsed
    -- the fields would be unchanged, and with them the byte
    simp only [append_assoc] at parsed
    have unchanged := (append_inj parsed (by simp)).1
    apply changed
    rw [append_assoc, List.getElem?_append_left (by simpa using early), ← unchanged]
    simp [early]

/-- Where the reserved bytes of a blob are zero, and only there, the decoder takes it for
    exactly the header and the payload that it is packed from; two blobs with one header and
    one payload differ only in the reserved bytes, and every other change of the first 80
    bytes changes the additional data or is refused. -/
theorem header_exact_iff_reserved_zero (blob : Bytes) :
    (Exact blob ↔ ReservedZero blob) ∧
    (∀ (header other : CiphertextHeader) payload payload',
      header.wrapPayload payload = other.wrapPayload payload' →
        header = other ∧ payload = payload') ∧
    (∀ other (header : CiphertextHeader) payload,
      unwrapPayload blob = .ok (header, payload) → unwrapPayload other = .ok (header, payload) →
      (blob = other ↔ slice blob 78 80 = slice other 78 80)) ∧
    ∀ (header : CiphertextHeader) payload i byte,
      unwrapPayload blob = .ok (header, payload) → i < headerSize → blob[i]? ≠ some byte →
      ((∀ other payload', unwrapPayload (blob.set i byte) = .ok (other, payload') → ∀ ecAad,
        other.buildAad ecAad ≠ header.buildAad ecAad) ↔ i < 78) := by
  refine ⟨⟨reservedZero_of_exact, exact_of_reservedZero⟩,
    fun _ _ _ _ => wrapPayload_inj, ?_, fun _ _ _ _ => set_changes_iff⟩
  intro _ _ _ first second
  obtain ⟨-, _, two, rfl⟩ := unwrapPayload_eq_ok.mp first
  obtain ⟨-, _, two', rfl⟩ := unwrapPayload_eq_ok.mp second
  rw [slice_reserved two, slice_reserved two']
  constructor
  · intro same
    have fronts := (append_inj same (by simp [two, two'])).1
    exact append_cancel_left fronts
  · rintro rfl
    rfl

/-- A header, and a blob of it whose first reserved byte was changed. -/
def sampleHeader : CiphertextHeader := .new ⟨Vector.replicate 32 7⟩ 3 zeroContextHash

def tamperedBlob : Bytes := (sampleHeader.wrapPayload [1, 2, 3]).set 78 1

theorem header_exact_iff_reserved_zero_sample :
    Exact (sampleHeader.wrapPayload [1, 2, 3]) ∧ ¬Exact tamperedBlob := by
  constructor
  · exact (header_exact_iff_reserved_zero _).1.mpr fun _ _ _ => by decide
  · intro exactly
    have zero := (header_exact_iff_reserved_zero _).1.mp exactly
    exact absurd (zero (by decide) (by decide) (by decide)) (by decide)

/-- Two different blobs are taken for one header and one payload, with the same additional
    data. -/
theorem reserved_bytes_unread :
    tamperedBlob ≠ sampleHeader.wrapPayload [1, 2, 3] ∧
    unwrapPayload tamperedBlob = .ok (sampleHeader, [1, 2, 3]) ∧
    unwrapPayload (sampleHeader.wrapPayload [1, 2, 3]) = .ok (sampleHeader, [1, 2, 3]) := by
  decide

end CiphertextHeader

/-! ### Contexts -/

namespace EncryptionContext

/-- Every key and value is shorter than 4 GiB. -/
def Short (context : EncryptionContext) : Prop :=
  ∀ pair ∈ context.pairs.entries, pair.1.utf8ByteSize < 2 ^ 32 ∧ pair.2.utf8ByteSize < 2 ^ 32

instance (context : EncryptionContext) : Decidable context.Short :=
  inferInstanceAs (Decidable (∀ pair ∈ context.pairs.entries, _))

/-- A length that is not cut is written in front of its text. -/
theorem lengthLe32_utf8 {text : String} (short : text.utf8ByteSize < 2 ^ 32) :
    lengthLe32 text.utf8ByteSize ++ utf8 text = prefixed 4 (utf8 text) := by
  rw [lengthLe32, Nat.mod_eq_of_lt short, prefixed, length_utf8]

theorem pairBytes_splits :
    Splits (fun pair : String × String => pair.1.utf8ByteSize < 2 ^ 32 ∧
      pair.2.utf8ByteSize < 2 ^ 32) pairBytes := by
  rintro ⟨key, value⟩ ⟨key', value'⟩ r s ⟨shortKey, shortValue⟩ ⟨shortKey', shortValue'⟩ same
  simp only [pairBytes, append_assoc] at same
  rw [← append_assoc, ← append_assoc (lengthLe32 key'.utf8ByteSize),
    lengthLe32_utf8 shortKey, lengthLe32_utf8 shortKey'] at same
  obtain ⟨keys, same⟩ := prefixed_splits 4 shortKey shortKey' same
  rw [← append_assoc, ← append_assoc (lengthLe32 value'.utf8ByteSize),
    lengthLe32_utf8 shortValue, lengthLe32_utf8 shortValue'] at same
  obtain ⟨values, rest⟩ := prefixed_splits 4 shortValue shortValue' same
  have sameKey : key = key' := utf8_inj keys
  have sameValue : value = value' := utf8_inj values
  exact ⟨by rw [sameKey, sameValue], rest⟩

variable {context : EncryptionContext}

/-- The authenticated bytes of a context determine it. -/
theorem toAadBytes_inj (short : context.Short) (short' : other.Short)
    (same : context.toAadBytes = other.toAadBytes) : context = other := by
  have nonempty (pair : String × String) : pairBytes pair ≠ [] := by
    simp [pairBytes, lengthLe32, littleEndian]
  have entries := pairBytes_splits.flatMap_inj (fun pair _ => nonempty pair) _ _ short short' same
  cases context
  congr 1
  exact SortedMap.ext entries

theorem hash_of_isEmpty [Blake3] (empty : context.isEmpty = true) :
    context.hash = zeroContextHash := by
  rw [hash, if_pos empty]

theorem eq_of_isEmpty (empty : context.isEmpty = true) (empty' : other.isEmpty = true) :
    context = other := by
  cases context
  congr 1
  apply SortedMap.ext
  rw [isEmpty_iff.mp empty, isEmpty_iff.mp empty']

/-- Two contexts have one hash only if they are equal, where the hash has no collision
    between them and neither has the zero hash. -/
theorem hash_inj [Blake3] (short : context.Short) (short' : other.Short)
    (collisionFree : Blake3.hash context.toAadBytes = Blake3.hash other.toAadBytes →
      context.toAadBytes = other.toAadBytes)
    (nonzero : Blake3.hash context.toAadBytes ≠ zeroContextHash)
    (nonzero' : Blake3.hash other.toAadBytes ≠ zeroContextHash) (same : context.hash = other.hash) :
    context = other := by
  by_cases empty : context.isEmpty = true
  · by_cases empty' : other.isEmpty = true
    · exact eq_of_isEmpty empty empty'
    · rw [hash_of_isEmpty empty, hash, if_neg empty'] at same
      exact absurd same.symm nonzero'
  · by_cases empty' : other.isEmpty = true
    · rw [hash_of_isEmpty empty', hash, if_neg empty] at same
      exact absurd same nonzero
    · rw [hash, if_neg empty, hash, if_neg empty'] at same
      exact toAadBytes_inj short short' (collisionFree same)

end EncryptionContext

/-- The additional data of an encryption determine the header and the context, and the
    hash of a context determines the context. -/
theorem aad_determines [Blake3] (header other : CiphertextHeader)
    (context context' : EncryptionContext) (short : context.Short) (short' : context'.Short) :
    (header.buildAad context.toAadBytes = other.buildAad context'.toAadBytes →
      header = other ∧ context = context') ∧
    ((Blake3.hash context.toAadBytes = Blake3.hash context'.toAadBytes →
        context.toAadBytes = context'.toAadBytes) →
      Blake3.hash context.toAadBytes ≠ zeroContextHash →
      Blake3.hash context'.toAadBytes ≠ zeroContextHash →
      (context.hash = context'.hash ↔ context = context')) := by
  constructor
  · intro same
    obtain ⟨headers, contexts⟩ := append_inj same (by simp)
    exact ⟨CiphertextHeader.encode_inj headers,
      EncryptionContext.toAadBytes_inj short short' contexts⟩
  · intro collisionFree nonzero nonzero'
    constructor
    · exact EncryptionContext.hash_inj short short' collisionFree nonzero nonzero'
    · rintro rfl
      rfl

def sampleContext (value : String) : EncryptionContext := ⟨SortedMap.empty.insert "tenant" value⟩

theorem aad_determines_sample :
    let _ : Blake3 := truncatingHash
    (sampleContext "a").hash ≠ (sampleContext "b").hash ∧
    CiphertextHeader.sampleHeader.buildAad (sampleContext "a").toAadBytes ≠
      CiphertextHeader.sampleHeader.buildAad (sampleContext "b").toAadBytes := by
  intro _
  have different : sampleContext "a" ≠ sampleContext "b" := by decide
  obtain ⟨aads, hashes⟩ := aad_determines CiphertextHeader.sampleHeader
    CiphertextHeader.sampleHeader (sampleContext "a") (sampleContext "b") (by decide) (by decide)
  constructor
  · intro same
    exact different ((hashes (by decide) (by decide) (by decide)).mp same)
  · intro same
    exact different (aads same).2

end KeyRack
