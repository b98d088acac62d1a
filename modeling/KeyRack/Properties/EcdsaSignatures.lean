import KeyRack.Pkcs11.EcdsaDer

/-!
# ECDSA signatures there and back

Leading zeros of a component are dropped and a zero is put before a high bit; the decoder
takes one zero off and pads. What is written in between is the one DER form. The decoder
reads others as well: it skips the length of the sequence and what follows the integers, and
does not ask for the shortest content.
-/
namespace KeyRack.Pkcs11

open Fallible Parsing List

/-- The content of a DER integer that is not negative, in its shortest form. -/
structure Minimal (content : Bytes) : Prop where
  positive : ∃ first rest, content = first :: rest ∧ first < 0x80
  shortest : ∀ second rest, content = 0x00 :: second :: rest → 0x80 ≤ second

/-- A DER sequence of two such integers, all lengths in their short form. -/
def StrictSequence (der : Bytes) : Prop :=
  ∃ r s : Bytes, Minimal r ∧ Minimal s ∧ r.length + s.length + 4 < 0x80 ∧
    der = [0x30, UInt8.ofNat (r.length + s.length + 4)] ++
      ([0x02, UInt8.ofNat r.length] ++ r) ++ ([0x02, UInt8.ofNat s.length] ++ s)

variable {content val tail rest raw der : Bytes} {first : UInt8}

/-- What `encodeInteger` keeps of a component: all from its first byte that is not zero, or
    its last byte. -/
theorem trimmed_append (zeros : Nat) (last : first = 0 → rest = []) :
    (replicate zeros 0 ++ first :: rest).drop
      (((replicate zeros 0 ++ first :: rest).findIdx? (· != 0)).getD
        ((replicate zeros 0 ++ first :: rest).length - 1)) = first :: rest := by
  by_cases zero : first = 0
  · simp [zero, last zero, findIdx?_append, findIdx?_cons]
  · simp [zero, findIdx?_append, findIdx?_cons]

theorem exists_trimmed (nonempty : val ≠ []) : ∃ zeros first rest,
    val = replicate zeros 0 ++ first :: rest ∧ (first = 0 → rest = []) := by
  induction val with
  | nil => exact absurd rfl nonempty
  | cons byte tail ih =>
    by_cases more : byte = 0 ∧ tail ≠ []
    · obtain ⟨rfl, more⟩ := more
      obtain ⟨zeros, first, rest, rfl, last⟩ := ih more
      exact ⟨zeros + 1, first, rest, rfl, last⟩
    · exact ⟨0, byte, tail, rfl, fun zero => not_not.mp fun other => more ⟨zero, other⟩⟩

theorem high_bit (byte : UInt8) : (byte &&& 0x80 != 0) = decide (0x80 ≤ byte) := by
  obtain ⟨⟨number⟩⟩ := byte
  revert number
  decide +kernel

/-- A content without the one leading zero that the decoder takes off. -/
def unpadded (content : Bytes) : Bytes :=
  if content.length > 1 ∧ content.head? = some 0x00 then content.drop 1 else content

abbrev integer (content : Bytes) : Bytes := [0x02, UInt8.ofNat content.length] ++ content

/-- What is left of a content is padded, if the component has room for it. -/
theorem readInteger_eq_ok (short : content.length < 256) :
    (readInteger width).run (integer content ++ tail) = .ok (val, rest) ↔
      (unpadded content).length ≤ width ∧
      replicate (width - (unpadded content).length) 0 ++ unpadded content = val ∧ tail = rest := by
  have number : (UInt8.ofNat content.length).toNat = content.length :=
    UInt8.toNat_ofNat_of_lt short
  simp only [cons_append, nil_append, StateT.run, readInteger, number, eq_ok, take_left, drop_left,
    unpadded, length_append, Prod.mk.injEq]
  constructor
  · rintro ⟨⟨⟩, -, ⟨⟩, fits, same⟩
    exact ⟨Nat.le_of_not_lt fits, same⟩
  · rintro ⟨fits, same⟩
    exact ⟨(), by omega, (), by omega, same⟩

/-- The bytes that are kept, with a zero before a high bit. -/
def padded (first : UInt8) (rest : Bytes) : Bytes :=
  (if 0x80 ≤ first then [0x00] else []) ++ first :: rest

/-- The zero that is put before a high bit is the one that is taken off. -/
theorem unpadded_padded (last : first = 0 → rest = []) :
    unpadded (padded first rest) = first :: rest := by
  by_cases high : 0x80 ≤ first
  · simp [padded, unpadded, high]
  · by_cases zero : first = 0
    · simp [padded, unpadded, zero, last zero]
    · simp [padded, unpadded, high, zero]

theorem minimal_iff : Minimal content ↔
    ∃ first rest, (first = 0 → rest = []) ∧ content = padded first rest := by
  constructor
  · rintro ⟨⟨first, rest, rfl, low⟩, shortest⟩
    by_cases more : first = 0 ∧ rest ≠ []
    · obtain ⟨rfl, more⟩ := more
      obtain ⟨second, rest, rfl⟩ := exists_cons_of_ne_nil more
      have high := shortest second rest rfl
      refine ⟨second, rest, ?_, by simp [padded, high]⟩
      rintro rfl
      exact absurd high (by decide)
    · exact ⟨first, rest, fun zero => not_not.mp fun other => more ⟨zero, other⟩,
        by simp [padded, UInt8.not_le.mpr low]⟩
  · rintro ⟨first, rest, last, rfl⟩
    by_cases high : 0x80 ≤ first
    · rw [padded, if_pos high]
      refine ⟨⟨0, _, rfl, by decide⟩, ?_⟩
      rintro _ _ ⟨⟩
      exact high
    · rw [padded, if_neg high]
      refine ⟨⟨first, rest, rfl, UInt8.not_le.mp high⟩, ?_⟩
      rintro _ _ ⟨⟩
      cases last rfl

/-- A component is written as the shortest content, from which it is read back. -/
theorem encodeInteger_reads (sized : val.length = width) (positive : 1 ≤ width)
    (short : width < 255) :
    ∃ content, encodeInteger val = integer content ∧ Minimal content ∧
      content.length ≤ width + 1 ∧ Reads (readInteger width) (integer content) val := by
  obtain ⟨zeros, first, rest, rfl, last⟩ :=
    exists_trimmed (ne_nil_of_length_pos (by omega : 0 < val.length))
  rw [length_append, length_replicate, length_cons] at sized
  have length : (padded first rest).length ≤ rest.length + 2 := by
    unfold padded
    split <;> simp
  refine ⟨padded first rest, ?_, minimal_iff.mpr ⟨first, rest, last, rfl⟩, by omega, fun tail => ?_⟩
  · simp only [encodeInteger, trimmed_append zeros last, head?_cons, Option.any_some, high_bit,
      decide_eq_true_eq, padded]
    by_cases high : 0x80 ≤ first
    · simp [high]
    · simp [high]
  · rw [readInteger_eq_ok (by omega), unpadded_padded last, length_cons, ← sized,
      Nat.add_sub_cancel]
    exact ⟨by omega, rfl, rfl⟩

/-- A raw signature is written as two shortest contents, from which its components are read. -/
theorem rawToDer_writes (positive : 1 ≤ componentLen) (short : componentLen ≤ 60)
    (sized : raw.length = componentLen * 2) :
    ∃ r s, Minimal r ∧ Minimal s ∧ r.length + s.length + 4 < 0x80 ∧
      rawToDer raw componentLen = .ok ([0x30, UInt8.ofNat (r.length + s.length + 4)] ++
        integer r ++ integer s) ∧
      Reads (readInteger componentLen) (integer r) (raw.take componentLen) ∧
      Reads (readInteger componentLen) (integer s) (raw.drop componentLen) := by
  obtain ⟨r, rEnc, rMinimal, rLength, rReads⟩ := @encodeInteger_reads (raw.take componentLen)
    componentLen (by rw [length_take]; omega) positive (by omega)
  obtain ⟨s, sEnc, sMinimal, sLength, sReads⟩ := @encodeInteger_reads (raw.drop componentLen)
    componentLen (by rw [length_drop]; omega) positive (by omega)
  refine ⟨r, s, rMinimal, sMinimal, by omega, ?_, rReads, sReads⟩
  have total : (integer r).length + (integer s).length = r.length + s.length + 4 := by
    simp only [length_append, length_cons, length_nil]
    omega
  simp only [rawToDer, eq_ok, not_not, rEnc, sEnc, total]
  exact ⟨(), sized, trivial⟩

/-- **Round trip**: a raw signature with components of up to 60 bytes has a DER form, which
    is strict, and is got back from it. -/
theorem derToRaw_rawToDer (raw : Bytes) (componentLen : Nat) (positive : 1 ≤ componentLen)
    (short : componentLen ≤ 60) (sized : raw.length = componentLen * 2) :
    ∃ der, rawToDer raw componentLen = .ok der ∧ StrictSequence der ∧
      derToRaw der componentLen = .ok raw := by
  obtain ⟨r, s, rMinimal, sMinimal, total, written, rReads, sReads⟩ :=
    rawToDer_writes positive short sized
  refine ⟨_, written, ⟨r, s, rMinimal, sMinimal, total, rfl⟩, ?_⟩
  simp only [derToRaw, eq_ok, Prod.exists]
  refine ⟨(), ?_, _, _, rReads _, _, [], ?_, take_append_drop componentLen raw⟩
  · simp
    omega
  · have last := sReads []
    rwa [append_nil] at last

theorem derToRaw_rawToDer_padded : ∃ der, rawToDer [0x80, 0x00] 1 = .ok der ∧
    StrictSequence der ∧ derToRaw der 1 = .ok [0x80, 0x00] :=
  derToRaw_rawToDer [0x80, 0x00] 1 (by decide) (by decide) rfl

/-- Only one shortest content is read as a given component. -/
theorem Minimal.unique (minimal : Minimal content)
    (minimal' : Minimal content') (short : content.length < 256) (short' : content'.length < 256)
    (read : (readInteger width).run (integer content ++ tail) = .ok (val, rest))
    (reads : Reads (readInteger width) (integer content') val) : content = content' := by
  obtain ⟨-, read, -⟩ := (readInteger_eq_ok short).mp read
  obtain ⟨-, read', -⟩ := (readInteger_eq_ok short').mp (reads [])
  obtain ⟨first, rest, last, rfl⟩ := minimal_iff.mp minimal
  obtain ⟨first', rest', last', rfl⟩ := minimal_iff.mp minimal'
  rw [unpadded_padded last] at read
  rw [unpadded_padded last', ← read] at read'
  have same := trimmed_append (width - (first' :: rest').length) last'
  rw [read', trimmed_append _ last] at same
  obtain ⟨rfl, rfl⟩ := cons_eq_cons.mp same
  rfl

/-- A strict form that the decoder reads is the one that is written. -/
theorem StrictSequence.written (strict : StrictSequence der) (positive : 1 ≤ componentLen)
    (short : componentLen ≤ 60)
    (read : derToRaw der componentLen = .ok raw) : rawToDer raw componentLen = .ok der := by
  obtain ⟨r, s, rMinimal, sMinimal, total, rfl⟩ := strict
  simp only [derToRaw, eq_ok, Prod.exists] at read
  obtain ⟨⟨⟩, -, rVal, tail, rRead, sVal, rest, sRead, rfl⟩ := read
  change (readInteger componentLen).run (integer r ++ _) = _ at rRead
  obtain ⟨rFits, rPadded, rfl⟩ := (readInteger_eq_ok (by omega)).mp rRead
  rw [← append_nil (_ ++ s)] at sRead
  obtain ⟨sFits, sPadded, -⟩ := (readInteger_eq_ok (by omega)).mp sRead
  have rSized : rVal.length = componentLen := by
    rw [← rPadded, length_append, length_replicate]
    omega
  have sSized : sVal.length = componentLen := by
    rw [← sPadded, length_append, length_replicate]
    omega
  obtain ⟨r', s', rMinimal', sMinimal', total', written, rReads, sReads⟩ :=
    @rawToDer_writes (rVal ++ sVal) componentLen positive short (by rw [length_append]; omega)
  rw [take_left' rSized] at rReads
  rw [drop_left' rSized] at sReads
  cases rMinimal.unique rMinimal' (by omega) (by omega) rRead rReads
  cases sMinimal.unique sMinimal' (by omega) (by omega) sRead sReads
  exact written

/-- **One spelling**: what was read is written as the bytes it was read from exactly if they
    are a strict form, and no two strict forms are read as one signature. -/
theorem rawToDer_derToRaw (der raw : Bytes) (componentLen : Nat) (positive : 1 ≤ componentLen)
    (short : componentLen ≤ 60) (read : derToRaw der componentLen = .ok raw) :
    (rawToDer raw componentLen = .ok der ↔ StrictSequence der) ∧
      ∀ der', StrictSequence der → StrictSequence der' →
        derToRaw der' componentLen = .ok raw → der' = der := by
  refine ⟨⟨fun written => ?_, fun strict => strict.written positive short read⟩, ?_⟩
  · have sized : raw.length = componentLen * 2 := by
      simp only [rawToDer, eq_ok, not_not] at written
      obtain ⟨⟨⟩, sized, -⟩ := written
      exact sized
    obtain ⟨r, s, rMinimal, sMinimal, total, strict, -, -⟩ := rawToDer_writes positive short sized
    cases written.symm.trans strict
    exact ⟨r, s, rMinimal, sMinimal, total, rfl⟩
  · intro der' strict strict' read'
    have written := strict.written positive short read
    rw [strict'.written positive short read'] at written
    exact Except.ok.inj written

theorem rawToDer_derToRaw_one :
    derToRaw [0x30, 0x06, 0x02, 0x01, 0x01, 0x02, 0x01, 0x01] 1 = .ok [0x01, 0x01] ∧
      (rawToDer [0x01, 0x01] 1 = .ok [0x30, 0x06, 0x02, 0x01, 0x01, 0x02, 0x01, 0x01] ↔
        StrictSequence [0x30, 0x06, 0x02, 0x01, 0x01, 0x02, 0x01, 0x01]) :=
  have read := ok_of_toOption (by decide +kernel)
  ⟨read, (rawToDer_derToRaw _ _ 1 (by decide) (by decide) read).1⟩

/-- Neither the length of the sequence nor what follows the integers is looked at. -/
theorem derToRaw_not_strict :
    derToRaw [0x30, 0x00, 0x02, 0x01, 0x01, 0x02, 0x01, 0x01] 1 = .ok [0x01, 0x01] ∧
      derToRaw [0x30, 0x06, 0x02, 0x01, 0x01, 0x02, 0x01, 0x01, 0xFF] 1 = .ok [0x01, 0x01] ∧
      rawToDer [0x01, 0x01] 1 = .ok [0x30, 0x06, 0x02, 0x01, 0x01, 0x02, 0x01, 0x01] :=
  ⟨ok_of_toOption (by decide +kernel), ok_of_toOption (by decide +kernel),
    ok_of_toOption (by decide +kernel)⟩

end KeyRack.Pkcs11
