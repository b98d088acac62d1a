import KeyRack.Kmip.Provider

/-!
# Blobs of a KMIP server's ciphertexts

A blob reads as its three parts exactly if it was framed from them and has a tag. Encryption
asks for a nonce that is not empty, but of the tag only that there is one.
-/
namespace KeyRack.Kmip

open Fallible List

theorem splitField_eq_ok :
    (splitField name).run bytes = .ok (part, rest) ↔
      part.length ≤ 255 ∧ bytes = UInt8.ofNat part.length :: part ++ rest := by
  constructor
  · intro read
    cases bytes with
    | nil => cases read
    | cons len bytes =>
      simp only [StateT.run, splitField, eq_ok, splitAt_eq, Prod.mk.injEq] at read
      obtain ⟨⟨⟩, long, rfl, rfl⟩ := read
      have sized : (bytes.take len.toNat).length = len.toNat := by
        rw [length_take]
        omega
      have bound := len.toNat_lt
      rw [sized, UInt8.ofNat_toNat, cons_append, take_append_drop]
      exact ⟨by omega, rfl⟩
  · rintro ⟨short, rfl⟩
    have number : (UInt8.ofNat part.length).toNat = part.length :=
      UInt8.toNat_ofNat_of_lt (by change _ < 256; omega)
    simp only [cons_append, StateT.run, splitField, number, eq_ok, splitAt_eq,
      take_left, drop_left, and_true]
    exact ⟨(), by simp⟩

theorem unframeBlob_eq_ok :
    unframeBlob blob = .ok (nonce, tag, data) ↔ frameBlob nonce tag data = .ok blob ∧ tag ≠ [] := by
  constructor
  · intro read
    cases blob with
    | nil => cases read
    | cons version blob =>
      simp only [unframeBlob, eq_ok, Prod.exists, splitField_eq_ok, Prod.mk.injEq, not_not] at read
      obtain ⟨⟨⟩, rfl, _, _, ⟨short, rfl⟩, _, _, ⟨short', rfl⟩, ⟨⟩, nonempty, rfl, rfl, rfl⟩ := read
      simp only [frameBlob, eq_ok]
      exact ⟨⟨(), by omega, by simp⟩, nonempty⟩
  · rintro ⟨framed, nonempty⟩
    simp only [frameBlob, eq_ok, not_or, Nat.not_lt] at framed
    obtain ⟨⟨⟩, ⟨short, short'⟩, rfl⟩ := framed
    simp only [cons_append, unframeBlob, eq_ok, Prod.exists, splitField_eq_ok]
    exact ⟨(), not_not.mpr rfl, nonce, _, ⟨short, by rw [append_assoc, cons_append]⟩, tag,
      data, ⟨short', rfl⟩, (), nonempty, rfl⟩

/-- **Blobs of encryption**: what encryption made of a response reads as the response's nonce,
    tag and data, and is decrypted by a request for them, exactly if the tag is not empty. What
    reads as three parts is framed from them. -/
theorem unframeBlob_encrypt_iff (send : KmipRequest → Except KeyRackError KmipResponse)
    (keyId : String) (plaintext aad blob : Bytes) (resp : KmipResponse)
    (sent : send (encryptRequest keyId plaintext none aad) = .ok resp)
    (encrypted : encrypt send keyId plaintext aad = .ok blob) :
    ((∃ nonce tag data, resp.bytes Tag.ivCounterNonce = some nonce ∧
      resp.bytes Tag.authenticatedEncryptionTag = some tag ∧ resp.bytes Tag.data = some data ∧
      unframeBlob blob = .ok (nonce, tag, data) ∧
      ∀ server keyId aad, decrypt server keyId blob aad =
        server (decryptRequest keyId data (some nonce) (some tag) aad) >>= decrypted) ↔
      resp.bytes Tag.authenticatedEncryptionTag ≠ some []) ∧
    ∀ blob nonce tag data, unframeBlob blob = .ok (nonce, tag, data) →
      frameBlob nonce tag data = .ok blob := by
  refine ⟨?_, fun _ _ _ _ read => (unframeBlob_eq_ok.mp read).1⟩
  simp only [encrypt, sent, eq_ok] at encrypted
  obtain ⟨_, ⟨⟩, ⟨⟩, -, ⟨⟩, -, data, found, ⟨⟩, present, tag, tagged, framed⟩ := encrypted
  constructor
  · rintro ⟨_, tag, _, -, tagged, -, read, -⟩ empty
    cases tagged.symm.trans empty
    exact (unframeBlob_eq_ok.mp read).2 rfl
  · intro nonempty
    obtain ⟨nonce, given⟩ : ∃ nonce, resp.bytes Tag.ivCounterNonce = some nonce := by
      cases given : resp.bytes Tag.ivCounterNonce with
      | none => simp [given] at present
      | some nonce => exact ⟨nonce, rfl⟩
    rw [given] at framed
    have read := unframeBlob_eq_ok.mpr ⟨framed, fun empty => nonempty (by rw [tagged, empty])⟩
    exact ⟨nonce, tag, data, given, tagged, found, read, fun _ _ _ => by rw [decrypt, read]; rfl⟩

/-- A response with one byte of nonce and of data. -/
def taggedResponse (tag : Bytes) : KmipResponse where
  resultStatus := 0
  resultMessage := none
  payload := some (.mk 0x42007C .struct (.struct [byteString Tag.data [7],
    byteString Tag.ivCounterNonce [1], byteString Tag.authenticatedEncryptionTag tag]))

theorem unframeBlob_encrypt_tagged :
    ∃ nonce tag data, unframeBlob [1, 1, 1, 1, 2, 7] = .ok (nonce, tag, data) :=
  have ⟨nonce, tag, data, _, _, _, read, _⟩ := (unframeBlob_encrypt_iff
    (fun _ => .ok (taggedResponse [2])) "" [] [] _ _ rfl (ok_of_toOption rfl)).1.mpr
    (by decide +kernel)
  ⟨nonce, tag, data, read⟩

/-- A tag of no bytes is framed, but not read. -/
theorem encrypt_empty_tag :
    encrypt (fun _ => .ok (taggedResponse [])) "" [] [] = .ok [1, 1, 1, 0, 7] ∧
      unframeBlob [1, 1, 1, 0, 7] =
        .error (malformed "no authentication tag, so nothing binds the ciphertext") :=
  ⟨rfl, rfl⟩

end KeyRack.Kmip
