import KeyRack.Properties.TamperEvidence

/-!
# The text of an audit signature

The decoder cuts the text after every second byte, which need not be the end of a character,
and reads each piece as a number, for which a plus sign and one digit will do.
-/
namespace KeyRack.Audit

open Fallible List Ed25519Verify

/-- Pieces of two bytes that are read as these numbers. -/
inductive Spells : Bytes → Bytes → Prop
  | nil : Spells [] []
  | pair : fromStrRadix first second = some byte → Spells rest bytes →
      Spells (first :: second :: rest) (byte :: bytes)

/-- A character goes beyond a piece, and the pieces before that one are numbers. -/
inductive Straddled : Bytes → Prop
  | here : rest.head?.any isContinuation → Straddled (first :: second :: rest)
  | later : (fromStrRadix first second).isSome → Straddled rest →
      Straddled (first :: second :: rest)

def asciiLower (byte : UInt8) : UInt8 :=
  if 0x41 ≤ byte ∧ byte ≤ 0x5A then byte + 0x20 else byte

variable {text : Bytes}

theorem hexDigit_some (read : hexDigit byte = some value) :
    isContinuation byte = false ∧ value < 16 ∧ asciiLower byte = (hexPair value).getD 1 0 := by
  have all : ∀ n : Fin 256, (hexDigit (UInt8.ofNat n)).all fun value =>
      isContinuation (UInt8.ofNat n) = false ∧ value < 16 ∧
        asciiLower (UInt8.ofNat n) = (hexPair value).getD 1 0 := by
    decide +kernel
  have here := all ⟨byte.toNat, byte.toNat_lt⟩
  simpa only [UInt8.ofNat_toNat, read, Option.all_some, decide_eq_true_eq] using here

theorem hexPair_digits (highDigit : high < 16) (lowDigit : low < 16) :
    hexPair (high * 16 + low) = [(hexPair high).getD 1 0, (hexPair low).getD 1 0] := by
  have all : ∀ high low : Fin 16, hexPair (UInt8.ofNat high * 16 + UInt8.ofNat low) =
      [(hexPair (UInt8.ofNat high)).getD 1 0, (hexPair (UInt8.ofNat low)).getD 1 0] := by
    decide +kernel
  have here := all ⟨high.toNat, highDigit⟩ ⟨low.toNat, lowDigit⟩
  simpa only [UInt8.ofNat_toNat] using here

theorem Spells.decoded (spells : Spells text bytes) :
    decodePairs text = .ok (some bytes) ∧ text.head?.any isContinuation = false := by
  induction spells with
  | nil => exact ⟨rfl, rfl⟩
  | @pair first second byte rest bytes read _ ih =>
    refine ⟨by simp only [decodePairs, ih, read]; rfl, ?_⟩
    rw [fromStrRadix] at read
    split at read
    next plus => subst plus; rfl
    next =>
      obtain ⟨high, digit, -⟩ := Option.bind_eq_some_iff.mp read
      exact (hexDigit_some digit).1

theorem Straddled.panics (straddled : Straddled text) :
    decodePairs text = .error .notCharBoundary := by
  induction straddled with
  | here beyond => rw [decodePairs, if_pos beyond]; rfl
  | later read _ ih =>
    obtain ⟨byte, read⟩ := Option.isSome_iff_exists.mp read
    rw [decodePairs]
    split
    next => rfl
    next => simp only [read, ih]; rfl

theorem decodePairs_cases (text : Bytes) :
    (∃ panic, decodePairs text = .error panic) ∧ Straddled text ∨
    decodePairs text = .ok none ∨
    ∃ bytes, decodePairs text = .ok (some bytes) ∧ (text.length % 2 = 0 → Spells text bytes) := by
  fun_induction decodePairs text with
  | case1 first second rest beyond => exact .inl ⟨⟨_, rfl⟩, .here beyond⟩
  | case2 => exact .inr (.inl rfl)
  | case3 first second rest _ byte read ih =>
    rcases ih with ⟨⟨panic, failed⟩, straddled⟩ | none | ⟨bytes, decoded, spells⟩
    · exact .inl ⟨⟨panic, by rw [failed]; rfl⟩, .later (by rw [read]; rfl) straddled⟩
    · exact .inr (.inl (by rw [none]; rfl))
    · refine .inr (.inr ⟨byte :: bytes, by rw [decoded]; rfl, fun even => .pair read (spells ?_)⟩)
      simp only [length_cons] at even
      omega
  | case4 text short =>
    refine .inr (.inr ⟨[], rfl, fun even => ?_⟩)
    match text with
    | [] => exact .nil
    | [_] => cases even
    | first :: second :: rest => cases short first second rest rfl

/-- Without a plus sign the text is that of the encoder, up to case. -/
theorem Spells.lower_iff (spells : Spells text bytes) :
    text.map asciiLower = utf8 (hexEncode bytes) ↔ 0x2B ∉ text := by
  rw [utf8_hexEncode]
  constructor
  · intro same plus
    have digits : ∀ n : Fin 256, 0x2B ∉ hexPair (UInt8.ofNat n) := by
      decide +kernel
    have listed : asciiLower 0x2B ∈ bytes.flatMap hexPair := by
      rw [← same]
      exact mem_map_of_mem plus
    obtain ⟨byte, -, member⟩ := mem_flatMap.mp listed
    have here := digits ⟨byte.toNat, byte.toNat_lt⟩
    rw [UInt8.ofNat_toNat] at here
    exact here member
  · intro plain
    induction spells with
    | nil => rfl
    | @pair first second byte rest bytes read _ ih =>
      rw [mem_cons, mem_cons, not_or, not_or] at plain
      rw [fromStrRadix, if_neg (Ne.symm plain.1)] at read
      obtain ⟨high, highRead, read⟩ := Option.bind_eq_some_iff.mp read
      obtain ⟨low, lowRead, ⟨⟩⟩ := Option.bind_eq_some_iff.mp read
      obtain ⟨-, highDigit, highLower⟩ := hexDigit_some highRead
      obtain ⟨-, lowDigit, lowLower⟩ := hexDigit_some lowRead
      rw [flatMap_cons, hexPair_digits highDigit lowDigit, ← highLower, ← lowLower, ← ih plain.2.2]
      rfl

theorem Spells.length (spells : Spells text bytes) : text.length = 2 * bytes.length := by
  induction spells with
  | nil => rfl
  | pair _ _ ih =>
    simp only [length_cons]
    omega

/-- **Signature text**: checking an event never panics, and accepts no text but the encoder's, up
    to case, for the signature that was verified, exactly if the text is not one of an even
    number of bytes that is cut inside a character, and not 64 numbers with a plus sign that are
    a signature of the event. -/
theorem verifyEvent_exact_iff [AuditJson] [Ed25519Verify] (text : String) (event : AuditEvent)
    (key : VerifyingKey) :
    (∃ accepted,
      AuditSigner.verifyEvent { event with signature := some text } key = .ok accepted ∧
      (accepted = true → ∃ sig : Signature, hexDecode text = .ok (some sig.toList) ∧
        verify key (utf8 (AuditJson.toString { event with signature := none })) sig ∧
        (utf8 text).map asciiLower = utf8 (hexEncode sig.toList))) ↔
    ¬((utf8 text).length % 2 = 0 ∧ Straddled (utf8 text)) ∧
      ¬∃ sig : Signature, Spells (utf8 text) sig.toList ∧ 0x2B ∈ utf8 text ∧
        verify key (utf8 (AuditJson.toString { event with signature := none })) sig := by
  constructor
  · rintro ⟨accepted, returned, known⟩
    constructor
    · rintro ⟨even, straddled⟩
      simp only [AuditSigner.verifyEvent, hexDecode, even, straddled.panics] at returned
      cases returned
    · rintro ⟨sig, spells, plus, verified⟩
      have even : (utf8 text).length % 2 = 0 := by
        have double := spells.length
        omega
      have decoded : hexDecode text = .ok (some sig.toList) := by
        rw [hexDecode, if_neg (not_not.mpr even), spells.decoded.1]
      simp only [AuditSigner.verifyEvent, decoded, bind, Except.bind,
        signatureFromSlice_toList] at returned
      cases returned
      obtain ⟨_, again, -, same⟩ := known verified
      rw [decoded, Except.ok.injEq, Option.some.injEq] at again
      exact spells.lower_iff.mp (again ▸ same) plus
  · rintro ⟨uncut, unsigned⟩
    by_cases even : (utf8 text).length % 2 = 0
    · rcases decodePairs_cases (utf8 text) with ⟨-, straddled⟩ | none | ⟨bytes, decoded, spells⟩
      · exact absurd ⟨even, straddled⟩ uncut
      · refine ⟨false, ?_, by rintro ⟨⟩⟩
        simp only [AuditSigner.verifyEvent, hexDecode, even, none]
        rfl
      · have whole : hexDecode text = .ok (some bytes) := by
          rw [hexDecode, if_neg (not_not.mpr even), decoded]
        simp only [AuditSigner.verifyEvent, whole, bind, Except.bind]
        cases found : signatureFromSlice bytes with
        | none => exact ⟨false, rfl, by rintro ⟨⟩⟩
        | some sig =>
          rw [signatureFromSlice] at found
          split at found <;> cases found
          next sized =>
          refine ⟨_, rfl, fun accepted => ⟨_, rfl, accepted, (spells even).lower_iff.mpr ?_⟩⟩
          exact fun plus => unsigned
            ⟨⟨bytes.toArray, by simpa using sized⟩, spells even, plus, accepted⟩
    · refine ⟨false, ?_, by rintro ⟨⟩⟩
      simp only [AuditSigner.verifyEvent, hexDecode, if_pos even]
      rfl

attribute [local instance] Cli.shortJson Cli.acceptingVerifier

/-- The second byte of a character is the third of the text; and a plus sign for a zero. -/
theorem verifyEvent_inexact :
    AuditSigner.verifyEvent { Cli.originalEvent with signature := some "aéb" }
      (Vector.replicate 32 0) = .error .notCharBoundary ∧
    AuditSigner.verifyEvent { Cli.originalEvent with
      signature := some (String.join (replicate 64 "+0")) } (Vector.replicate 32 0) = .ok true :=
  ⟨rfl, ok_of_toOption (by decide +kernel)⟩

end KeyRack.Audit
