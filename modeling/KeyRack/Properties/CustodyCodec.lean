import KeyRack.Core.Evidence
import KeyRack.Lib.Parsing

/-!
# The custody contract reads what it writes

Every reader of the contract takes exactly the bytes that the writer of the same field
puts there. A message that can be written is therefore read back, and what is accepted was
written; the kind of a message is part of its bytes.
-/
namespace KeyRack.Custody

open Fallible Framing Parsing Wire
open List (append_assoc append_cancel_left_eq append_inj append_nil cons_append
  head_eq_of_cons_eq length_append reverse_concat)

/-! ### Fields -/

theorem reads_take (bytes : Bytes) (length : bytes.length = n) : Reads (take n) bytes bytes := by
  intro _
  subst length
  simp only [take, StateT.run_bind, StateT.run_get, pure_bind, length_append]
  simp
  rfl

theorem reads_literal (value : Bytes) : Reads (literal value) value () := by
  apply (reads_take value rfl).finish
  rw [if_neg (by simp)]
  exact reads_pure _

theorem reads_fixed {n : Nat} (value : Vector UInt8 n) : Reads (fixed n) value.toList value := by
  apply (reads_take value.toList (by simp)).finish
  rw [dif_pos (by simp)]
  exact reads_pure _

theorem reads_u8 (byte : UInt8) : Reads readU8 [byte] byte := by
  apply (reads_fixed #v[byte]).finish
  exact reads_pure _

theorem fromBigEndian_concat (bytes : Bytes) (byte : UInt8) :
    fromBigEndian (bytes ++ [byte]) = fromBigEndian bytes * 256 + byte.toNat := by
  simp [fromBigEndian]

theorem fromBigEndian_eq (bytes : Bytes) : fromBigEndian bytes = ofBigEndian bytes := by
  induction bytes using List.reverseRecOn with
  | nil => rfl
  | append_singleton _ _ ih =>
    rw [fromBigEndian_concat, ih, ofBigEndian, ofBigEndian, reverse_concat, ofLittleEndian]
    omega

theorem reads_nat {width n : Nat} (small : n < 256 ^ width) :
    Reads (readNat width) (bigEndian width n) n := by
  have octets := reads_fixed (⟨(bigEndian width n).toArray, by simp⟩ : Vector UInt8 width)
  apply octets.finish
  rw [fromBigEndian_eq]
  change Reads (pure (ofBigEndian (bigEndian width n))) [] n
  rw [ofBigEndian_bigEndian small]
  exact reads_pure n

theorem reads_u64 (n : U64) : Reads readU64 (writeU64 n) n := by
  apply (reads_nat n.isLt).finish
  rw [Fin.ofNat_val_eq_self]
  exact reads_pure n

theorem reads_nonzero (n : NonZeroU64) : Reads readNonzero (writeU64 n.get) n := by
  apply (reads_u64 n.get).finish
  apply reads_lift
  simp [NonZeroU64.new, n.nonzero]

theorem validIdentifier_size {text : String} (valid : validIdentifier text = true) :
    text.utf8ByteSize ≠ 0 ∧ text.utf8ByteSize ≤ 256 := by
  simp only [validIdentifier, Bool.and_eq_true, decide_eq_true_eq, Bool.not_eq_true'] at valid
  refine ⟨?_, valid.1.2⟩
  intro _
  simp_all

theorem reads_id (id : WrappingIdentifier) : Reads readId (writeId id) id := by
  obtain ⟨_, bounded⟩ := validIdentifier_size id.valid
  have small : id.asStr.utf8ByteSize < 256 ^ 2 := Nat.lt_of_le_of_lt bounded (by decide)
  apply (reads_nat small).bind
  rw [if_neg (by omega)]
  apply (reads_take (utf8 id.asStr) (length_utf8 _)).finish
  have text : okOr (String.fromUTF8? ⟨(utf8 id.asStr).toArray⟩)
      (ContractError.encoding "identifier not ASCII") = .ok id.asStr :=
    okOr_eq_ok.mpr (fromUTF8_utf8 id.asStr)
  apply (reads_lift text).finish
  apply reads_lift
  rw [mapErr_eq_ok, WrappingIdentifier.new_eq_ok]

variable {bytes : Bytes}

theorem reads_uuid {id : Uuid} (written : writeUuid id = .ok bytes) : Reads readUuid bytes id := by
  simp only [writeUuid, eq_ok] at written
  obtain ⟨_, notNil, rfl⟩ := written
  have small : id.bits.toNat < 256 ^ 16 := id.bits.isLt
  apply (reads_nat small).finish
  simp only [BitVec.ofNat_toNat, BitVec.setWidth_eq]
  rw [if_neg notNil]
  exact reads_pure id

theorem reads_blob (wrote : writeBlob bytes = .ok written) : Reads readBlob written bytes := by
  simp only [writeBlob, eq_ok] at wrote
  obtain ⟨_, bounded, rfl⟩ := wrote
  have small : bytes.length < 256 ^ 4 := Nat.lt_of_le_of_lt (Nat.le_of_not_lt bounded) (by decide)
  apply (reads_nat small).bind
  rw [if_neg bounded]
  exact reads_take bytes rfl

theorem reads_executor (id : ExecutorIncarnation) : Reads readExecutor (writeExecutor id) id := by
  apply (reads_fixed id.bytes).finish
  apply reads_lift
  simp [ExecutorIncarnation.new, id.nonzero]

theorem reads_clock (clock : ClockDomain) : Reads readClock clock.write clock := by
  cases clock with
  | unixMilliseconds => exact (reads_u8 1).finish (reads_pure _)
  | executorMonotonicMilliseconds id =>
    exact (reads_u8 2).bind ((reads_executor id).finish (reads_pure _))

theorem reads_validity (written : validity.write = .ok bytes) :
    Reads readValidity bytes validity := by
  simp only [Validity.write, eq_ok] at written
  obtain ⟨_, valid, rfl⟩ := written
  rw [append_assoc]
  apply (reads_clock validity.clock).bind
  apply (reads_u64 validity.notBefore).bind
  apply (reads_u64 validity.notAfter).finish
  exact (reads_lift valid).finish (reads_pure _)

/-! ### Wrapping contexts -/

/-- The key versions are of the width in which they are written. -/
def Fits (context : WrappingContext) : Prop :=
  context.child.version < 2 ^ 64 ∧ context.parent.version < 2 ^ 64

theorem reads_key {id : VersionedKeyId} (small : id.version < 2 ^ 64) :
    Reads readKey (appendKeyId id) id := by
  apply (reads_fixed id.lid.bytes).bind
  apply (@reads_nat 8 id.version small).finish
  apply reads_lift
  rw [mapErr_eq_ok, VersionedKeyId.new_eq_ok]
  exact ⟨rfl, rfl⟩

theorem yields_nat (width : Nat) : Yields (fun n => n < 256 ^ width) (readNat width) := by
  refine yields_then fun octets => yields_pure ?_
  rw [fromBigEndian_eq]
  have bound := ofBigEndian_lt octets.toList
  rwa [Vector.length_toList] at bound

theorem yields_key : Yields (fun id : VersionedKeyId => id.version < 2 ^ 64) readKey := by
  refine yields_then fun _ => (yields_nat 8).bind fun _ small => yields_lift ?_
  intro _ made
  obtain ⟨_, same⟩ := VersionedKeyId.new_eq_ok.mp (mapErr_eq_ok.mp made)
  rw [same]
  exact small

theorem reads_spec (valid : validRsaSize spec = true) : Reads readSpec (appendSpec spec) spec := by
  have size {n : Nat} (valid : (n == 2048 || n == 3072 || n == 4096) = true) : n < 256 ^ 4 := by
    simp only [Bool.or_eq_true, beq_iff_eq] at valid
    omega
  cases spec with
  | rsaPkcs1v15Sha256 keySize | rsaPssSha256 keySize =>
    exact (reads_u8 _).bind ((reads_nat (size valid)).finish (reads_pure _))
  | aes256 | aes128 | ed25519 | ecdsaP256Sha256 | ecdsaP384 | hmac256 =>
    exact (reads_u8 _).finish (reads_pure _)

theorem reads_format (format : WrappedKeyFormat) :
    Reads readFormat (appendFormat format) format := by
  cases format with
  | rawSecret | pkcs8Der => exact (reads_u8 _).finish (reads_pure _)
  | providerNative name => exact (reads_u8 3).bind ((reads_id name).finish (reads_pure _))

theorem reads_purpose (purpose : WrappingKeyPurpose) : Reads readPurpose [purpose.tag] purpose := by
  cases purpose with
  | encryptDecrypt | signVerify | generateVerifyMac | wrapUnwrap =>
    exact (reads_u8 _).finish (reads_pure _)

theorem reads_publicMaterial (digest : Option Digest) :
    Reads readPublicMaterial (match digest with | none => [0] | some digest => 1 :: digest.toList)
      digest := by
  cases digest with
  | none => exact (reads_u8 0).finish (reads_pure _)
  | some digest => exact (reads_u8 1).bind ((reads_fixed digest).finish (reads_pure _))

/-- What a context must meet to be written. -/
theorem validate_eq_ok {context : WrappingContext} (valid : context.validate = .ok ()) :
    validIdentifier context.providerRef.name = true ∧ validRsaSize context.parentSpec = true ∧
      validRsaSize context.childSpec = true := by
  simp only [WrappingContext.validate, validateIdentifier, validateProfile, eq_ok] at valid
  obtain ⟨_, name, _, ⟨_, _, _, child, _⟩, _⟩ := valid
  refine ⟨by simpa using name, ?_, by simpa using child⟩
  cases spec : context.parentSpec <;> simp_all [validRsaSize, KeySpec.isAes]

theorem reads_context {context : WrappingContext} (fits : Fits context)
    (written : context.canonicalBytes = .ok bytes) : Reads readContext bytes context := by
  simp only [WrappingContext.canonicalBytes, eq_ok] at written
  obtain ⟨_, valid, rfl⟩ := written
  obtain ⟨name, parent, child⟩ := validate_eq_ok valid
  simp only [append_assoc]
  apply (reads_literal contextDomain).bind
  apply (@reads_nat 2 1 (by decide)).bind
  apply (reads_key fits.1).bind
  apply (reads_key fits.2).bind
  apply (reads_spec parent).bind
  apply (reads_spec child).bind
  apply (reads_format context.keyFormat).bind
  apply (reads_purpose context.purpose).bind
  apply (reads_id ⟨context.providerRef.name, name⟩).bind
  apply (reads_id context.securityDomain).bind
  apply (reads_id context.mechanism).bind
  apply (reads_publicMaterial context.publicMaterialSha256).finish
  exact reads_pure context

theorem yields_context : Yields Fits readContext := by
  refine yields_then fun _ => yields_then fun _ => ?_
  split
  · exact yields_throw_then
  · refine yields_key.bind fun _ smallChild => yields_key.bind fun _ smallParent => ?_
    refine yields_then fun _ => yields_then fun _ => ?_
    refine yields_then fun _ => yields_then fun _ => ?_
    refine yields_then fun _ => yields_then fun _ => ?_
    refine yields_then fun _ => yields_then fun _ => ?_
    exact yields_pure ⟨smallChild, smallParent⟩

/-- The strict reader returns a context exactly when it was given its canonical bytes. -/
theorem readV1_eq_ok :
    readV1 bytes = .ok context ↔ context.canonicalBytes = .ok bytes ∧ Fits context := by
  simp only [readV1, eq_ok, not_not]
  constructor
  · rintro ⟨⟨_, _⟩, ran, _, rfl, _, written, _, rfl, rfl⟩
    exact ⟨written, yields_context _ _ _ ran⟩
  · rintro ⟨written, fits⟩
    have ran := reads_context fits written []
    rw [append_nil] at ran
    exact ⟨(context, []), ran, (), rfl, bytes, written, (), rfl, rfl⟩

/-- Canonical bytes determine the context, and the strict reader returns a context exactly
    when it is given its canonical bytes. -/
theorem context_bytes_exact :
    (∀ (context other : WrappingContext) bytes, Fits context → Fits other →
      context.canonicalBytes = .ok bytes → other.canonicalBytes = .ok bytes → context = other) ∧
    ∀ bytes (context : WrappingContext),
      readV1 bytes = .ok context ↔ context.canonicalBytes = .ok bytes ∧ Fits context := by
  refine ⟨?_, fun _ _ => readV1_eq_ok⟩
  intro _ _ _ fits fits' written written'
  have first := readV1_eq_ok.mpr ⟨written, fits⟩
  have second := readV1_eq_ok.mpr ⟨written', fits'⟩
  exact Except.ok.inj (first.symm.trans second)

def sampleName : WrappingIdentifier := ⟨"pkcs11:slot-1", by decide⟩

/-- An RSA child under an AES parent, in a format of its provider. -/
def sampleWrapping : WrappingContext where
  version := .v1
  child := ⟨⟨Vector.replicate 32 1⟩, 7, by decide⟩
  parent := ⟨⟨Vector.replicate 32 2⟩, 2 ^ 64 - 1, by decide⟩
  parentSpec := .aes256
  childSpec := .rsaPssSha256 3072
  keyFormat := .providerNative sampleName
  purpose := .signVerify
  providerRef := ⟨"hsm"⟩
  securityDomain := sampleName
  mechanism := sampleName
  publicMaterialSha256 := some (Vector.replicate 32 9)

theorem context_bytes_exact_sample : ∃ bytes, sampleWrapping.canonicalBytes = .ok bytes ∧
    readV1 bytes = .ok sampleWrapping ∧
    ∀ other, Fits other → other.canonicalBytes = .ok bytes → sampleWrapping = other := by
  have fits : Fits sampleWrapping := ⟨by decide, by decide⟩
  have written : ∃ bytes, sampleWrapping.canonicalBytes = .ok bytes := ⟨_, rfl⟩
  obtain ⟨bytes, written⟩ := written
  refine ⟨bytes, written, (context_bytes_exact.2 _ _).mpr ⟨written, fits⟩, ?_⟩
  intro _ fits' written'
  exact context_bytes_exact.1 _ _ bytes fits fits' written written'

/-! ### Messages -/

section
variable {α : Type} [Wire α] {fits : α → Prop} {value : α} {bytes : Bytes}

/-- What is written of a message is read back, where its numbers are of the width in which
    they are written. -/
def Faithful (α : Type) [Wire α] (fits : α → Prop) : Prop :=
  ∀ (value : α) (bytes : Bytes), fits value → write value = .ok bytes →
    Reads (read : Reader α) bytes value

theorem canonicalBytes_ok (written : canonicalBytes value = .ok bytes) :
    ∃ body, write value = .ok body ∧ bytes = domain ++ bigEndian 2 1 ++ [kind α] ++ body ∧
      bytes.length ≤ maxContractBytes := by
  simp only [canonicalBytes, eq_ok, Nat.not_lt] at written
  obtain ⟨body, written, _, bounded, rfl⟩ := written
  exact ⟨body, written, rfl, bounded⟩

section
variable (faithful : Faithful α fits) (fit : fits value)
  (written : canonicalBytes value = .ok bytes)
include faithful fit written

theorem Faithful.reads_message : Reads readMessage bytes value := by
  obtain ⟨body, wrote, rfl, -⟩ := canonicalBytes_ok written
  apply (reads_literal domain).bind
  apply (@reads_nat 2 1 (by decide)).bind
  apply (reads_u8 (kind α)).bind
  rw [if_neg (by simp)]
  exact faithful value body fit wrote

/-- A message that can be written is read back. -/
theorem Faithful.fromCanonicalBytes : fromCanonicalBytes bytes = .ok value := by
  have bounded := (canonicalBytes_ok written).choose_spec.2.2
  have ran := faithful.reads_message fit written []
  rw [append_nil] at ran
  simp only [Custody.fromCanonicalBytes, eq_ok]
  exact ⟨(), Nat.not_lt.mpr bounded, (value, []), ran, (), not_not.mpr rfl, bytes, written, (),
    not_not.mpr rfl, rfl⟩

end

/-- What is accepted was written. -/
theorem canonicalBytes_of_fromCanonicalBytes (accepted : fromCanonicalBytes bytes = .ok value) :
    canonicalBytes value = .ok bytes := by
  simp only [fromCanonicalBytes, eq_ok, not_not] at accepted
  obtain ⟨_, _, ⟨_, _⟩, _, _, _, _, written, _, rfl, rfl⟩ := accepted
  exact written

theorem Faithful.reads_nested (faithful : Faithful α fits) (fit : fits value)
    (written : writeMessage value = .ok bytes) : Reads readNested bytes value := by
  simp only [writeMessage, bind_eq_ok] at written
  obtain ⟨_, wrote, blob⟩ := written
  apply (reads_blob blob).finish
  exact reads_lift (faithful.fromCanonicalBytes fit wrote)

end

theorem faithful_profile : Faithful CustodyProfile fun _ => True := by
  rintro ⟨boundary, id⟩ _ _ written
  cases pure_eq_ok.mp written
  have named (boundary : ExecutionBoundary) : Reads
      (do return ⟨← pure boundary, ← readId⟩ : Reader CustodyProfile) (writeId id)
      ⟨boundary, id⟩ := by
    rw [pure_bind]
    exact (reads_id id).finish (reads_pure _)
  cases boundary with
  | providerSessionObject | providerJournaledTemporaryObject | trustedHostWorkerMemory =>
    exact (reads_u8 _).bind (named _)

theorem faithful_context : Faithful CustodyContext fun context => Fits context.wrapping := by
  intro _ _ fits written
  simp only [write, eq_ok] at written
  obtain ⟨_, _, _, canonical, _, blob, _, nested, rfl⟩ := written
  apply (reads_blob blob).bind
  apply (reads_lift (readV1_eq_ok.mpr ⟨canonical, fits⟩)).bind
  apply (faithful_profile.reads_nested trivial nested).finish
  exact reads_pure _

theorem faithful_descriptor :
    Faithful CustodyMaterialDescriptor fun material => Fits material.context.wrapping := by
  intro material _ fits written
  simp only [write, eq_ok] at written
  obtain ⟨_, nested, rfl⟩ := written
  rw [append_assoc]
  apply (faithful_context.reads_nested fits nested).bind
  apply (reads_id material.envelopeRef).bind
  exact (reads_fixed material.envelopeSha256).finish (reads_pure _)

theorem faithful_request : Faithful RequestBinding fun _ => True := by
  intro request _ _ written
  simp only [write, eq_ok] at written
  obtain ⟨_, _, _, first, _, second, rfl⟩ := written
  simp only [append_assoc]
  apply (reads_uuid first).bind
  apply (reads_uuid second).bind
  apply (reads_executor request.executor).bind
  apply (reads_fixed request.contextSha256).bind
  exact (reads_fixed request.requestSha256).finish (reads_pure _)

theorem reads_scope (written : scope.write = .ok bytes) : Reads readScope bytes scope := by
  cases scope with
  | context digest =>
    cases pure_eq_ok.mp written
    exact (reads_u8 1).bind ((reads_fixed digest).finish (reads_pure _))
  | securityDomain _ domain =>
    simp only [AuthorityScope.write, eq_ok, WrappingIdentifier.new_eq_ok] at written
    obtain ⟨provider, name, rfl⟩ := written
    apply (reads_u8 2).bind
    apply (reads_id provider).bind
    apply (reads_id domain).finish
    rw [name]
    exact reads_pure _

theorem faithful_authority : Faithful AuthorityIdentity fun _ => True := by
  intro authority _ _ written
  simp only [write, eq_ok] at written
  obtain ⟨_, wrote, rfl⟩ := written
  rw [append_assoc]
  apply (reads_id authority.issuer).bind
  apply (reads_scope wrote).bind
  exact (reads_nonzero authority.generation).finish (reads_pure _)

theorem reads_operation (operation : CryptoOperation) :
    Reads readOperation [operation.tag] operation := by
  cases operation with
  | generateWrapped | encrypt | decrypt => exact (reads_u8 _).finish (reads_pure _)

theorem faithful_grant : Faithful AuthorityGrant fun _ => True := by
  intro grant _ _ written
  simp only [write, eq_ok] at written
  obtain ⟨_, _, _, first, _, second, _, third, rfl⟩ := written
  simp only [append_assoc]
  apply (faithful_authority.reads_nested trivial first).bind
  apply (faithful_request.reads_nested trivial second).bind
  apply (reads_id grant.principal).bind
  apply (reads_operation grant.operation).bind
  apply (reads_nonzero grant.sequence).bind
  apply (reads_validity third).bind
  exact (reads_u64 grant.ancestorNotAfter).finish (reads_pure _)

theorem faithful_lease : Faithful LeaseIdentity fun _ => True := by
  intro lease _ _ written
  cases pure_eq_ok.mp written
  apply (reads_executor lease.executor).bind
  exact (reads_nonzero lease.counter).finish (reads_pure _)

theorem faithful_record : Faithful LeaseRecord fun _ => True := by
  intro record _ _ written
  simp only [write, eq_ok] at written
  obtain ⟨_, _, _, _, _, first, _, second, _, third, rfl⟩ := written
  simp only [append_assoc]
  apply (faithful_lease.reads_nested trivial first).bind
  apply (reads_fixed record.contextSha256).bind
  apply (faithful_authority.reads_nested trivial second).bind
  exact (reads_validity third).finish (reads_pure _)

theorem reads_outcome (outcome : CreationOutcome) : Reads readOutcome outcome.write outcome := by
  cases outcome with
  | providerSessionClosed name | providerTemporaryObjectDestroyed name =>
    exact (reads_u8 _).bind ((reads_id name).finish (reads_pure _))
  | nativeWrappedOnlyGenerated => exact (reads_u8 3).finish (reads_pure _)

theorem faithful_creation :
    Faithful CreationResult fun result => result.owner.generation < 2 ^ 64 := by
  intro result _ small written
  simp only [write, eq_ok] at written
  obtain ⟨_, first, _, second, _, nonzero, rfl⟩ := written
  simp only [append_assoc]
  apply (faithful_request.reads_nested trivial first).bind
  apply (reads_uuid second).bind
  have generation := reads_nonzero
    ⟨⟨result.owner.generation, small⟩, fun zero => nonzero (congrArg Fin.val zero)⟩
  apply generation.bind
  apply (reads_fixed result.materialSha256).bind
  exact (reads_outcome result.outcome).finish (reads_pure _)

theorem faithful_cleanup : Faithful LeaseCleanupResult fun _ => True := by
  rintro ⟨_, reason⟩ _ _ written
  simp only [write, eq_ok] at written
  obtain ⟨_, nested, rfl⟩ := written
  apply (faithful_record.reads_nested trivial nested).bind
  cases reason with
  | released | residencyExpired | authorityFenced => exact (reads_u8 _).finish (reads_pure _)

theorem faithful_command : Faithful RevocationCommand fun _ => True := by
  intro command _ _ written
  simp only [write, eq_ok] at written
  obtain ⟨_, _, _, first, _, second, _, third, rfl⟩ := written
  simp only [append_assoc]
  apply (reads_uuid first).bind
  apply (reads_executor command.executor).bind
  apply (faithful_authority.reads_nested trivial second).bind
  exact (reads_validity third).finish (reads_pure _)

theorem reads_disposition (inFlight : InFlightDisposition) :
    Reads readDisposition [dispositionTag inFlight] inFlight := by
  cases inFlight with
  | drained | furtherReleaseBlocked => exact (reads_u8 _).finish (reads_pure _)

theorem reads_leases (written : writeLeases executor previous leases = .ok bytes) :
    Reads (readLeases leases.length) bytes leases := by
  induction leases generalizing previous bytes with
  | nil =>
    cases pure_eq_ok.mp written
    exact reads_pure _
  | cons _ _ ih =>
    simp only [writeLeases, eq_ok] at written
    obtain ⟨_, _, _, nested, _, wrote, rfl⟩ := written
    apply (faithful_lease.reads_nested trivial nested).bind
    exact (ih wrote).finish (reads_pure _)

theorem faithful_revocation : Faithful RevocationResult fun _ => True := by
  intro result _ _ written
  simp only [write, eq_ok] at written
  obtain ⟨_, first, _, second, _, few, _, third, rfl⟩ := written
  have small : result.observedLeases.length < 256 ^ 2 :=
    Nat.lt_of_le_of_lt (Nat.le_of_not_lt few) (by decide)
  simp only [append_assoc]
  apply (reads_uuid first).bind
  apply (reads_executor result.executor).bind
  apply (faithful_authority.reads_nested trivial second).bind
  apply (reads_fixed result.commandSha256).bind
  apply (reads_disposition result.inFlight).bind
  apply (reads_nat small).bind
  rw [if_neg few]
  exact (reads_leases third).finish (reads_pure _)

theorem faithful_evidence {α : Type} [EvidenceClaims α] {fits : α → Prop}
    (faithful : Faithful α fits) : Faithful (Evidence α) fun evidence => fits evidence.claims := by
  intro evidence _ fit written
  simp only [write, eq_ok] at written
  obtain ⟨_, _, _, nested, rfl⟩ := written
  simp only [append_assoc, cons_append]
  apply (reads_u8 1).bind
  apply (reads_id evidence.issuer).bind
  apply (reads_id evidence.keyId).bind
  apply (faithful.reads_nested fit nested).bind
  exact (reads_fixed evidence.signature).finish (reads_pure _)

/-! ### Kinds -/

/-- The claims that may be signed. -/
inductive ClaimKind where
  | authorityGrant
  | revocationCommand
  | creationResult
  | leaseCleanupResult
  | revocationResult

@[reducible] def ClaimKind.Value : ClaimKind → Type
  | .authorityGrant => AuthorityGrant
  | .revocationCommand => RevocationCommand
  | .creationResult => CreationResult
  | .leaseCleanupResult => LeaseCleanupResult
  | .revocationResult => RevocationResult

instance (claims : ClaimKind) : EvidenceClaims claims.Value :=
  match claims with
  | .authorityGrant => inferInstanceAs (EvidenceClaims AuthorityGrant)
  | .revocationCommand => inferInstanceAs (EvidenceClaims RevocationCommand)
  | .creationResult => inferInstanceAs (EvidenceClaims CreationResult)
  | .leaseCleanupResult => inferInstanceAs (EvidenceClaims LeaseCleanupResult)
  | .revocationResult => inferInstanceAs (EvidenceClaims RevocationResult)

/-- The kinds of messages; signed ones are told apart by what they claim. -/
inductive Kind where
  | custodyProfile
  | custodyContext
  | custodyMaterialDescriptor
  | requestBinding
  | authorityIdentity
  | authorityGrant
  | leaseIdentity
  | leaseRecord
  | creationResult
  | leaseCleanupResult
  | revocationCommand
  | revocationResult
  | evidence (claims : ClaimKind)

@[reducible] def Kind.Value : Kind → Type
  | .custodyProfile => CustodyProfile
  | .custodyContext => CustodyContext
  | .custodyMaterialDescriptor => CustodyMaterialDescriptor
  | .requestBinding => RequestBinding
  | .authorityIdentity => AuthorityIdentity
  | .authorityGrant => AuthorityGrant
  | .leaseIdentity => LeaseIdentity
  | .leaseRecord => LeaseRecord
  | .creationResult => CreationResult
  | .leaseCleanupResult => LeaseCleanupResult
  | .revocationCommand => RevocationCommand
  | .revocationResult => RevocationResult
  | .evidence claims => Evidence claims.Value

instance (kind : Kind) : Wire kind.Value :=
  match kind with
  | .custodyProfile => inferInstanceAs (Wire CustodyProfile)
  | .custodyContext => inferInstanceAs (Wire CustodyContext)
  | .custodyMaterialDescriptor => inferInstanceAs (Wire CustodyMaterialDescriptor)
  | .requestBinding => inferInstanceAs (Wire RequestBinding)
  | .authorityIdentity => inferInstanceAs (Wire AuthorityIdentity)
  | .authorityGrant => inferInstanceAs (Wire AuthorityGrant)
  | .leaseIdentity => inferInstanceAs (Wire LeaseIdentity)
  | .leaseRecord => inferInstanceAs (Wire LeaseRecord)
  | .creationResult => inferInstanceAs (Wire CreationResult)
  | .leaseCleanupResult => inferInstanceAs (Wire LeaseCleanupResult)
  | .revocationCommand => inferInstanceAs (Wire RevocationCommand)
  | .revocationResult => inferInstanceAs (Wire RevocationResult)
  | .evidence claims => inferInstanceAs (Wire (Evidence claims.Value))

def ClaimKind.Fits : (claims : ClaimKind) → claims.Value → Prop
  | .creationResult, result => result.owner.generation < 2 ^ 64
  | _, _ => True

/-- The numbers of a message are `u64`. -/
def Kind.Fits : (kind : Kind) → kind.Value → Prop
  | .custodyContext, context => Custody.Fits context.wrapping
  | .custodyMaterialDescriptor, material => Custody.Fits material.context.wrapping
  | .creationResult, result => result.owner.generation < 2 ^ 64
  | .evidence claims, signed => claims.Fits signed.claims
  | _, _ => True

theorem faithful_claims (claims : ClaimKind) : Faithful claims.Value claims.Fits := by
  cases claims with
  | authorityGrant => exact faithful_grant
  | revocationCommand => exact faithful_command
  | creationResult => exact faithful_creation
  | leaseCleanupResult => exact faithful_cleanup
  | revocationResult => exact faithful_revocation

theorem faithful_kind (kind : Kind) : Faithful kind.Value kind.Fits := by
  cases kind with
  | custodyProfile => exact faithful_profile
  | custodyContext => exact faithful_context
  | custodyMaterialDescriptor => exact faithful_descriptor
  | requestBinding => exact faithful_request
  | authorityIdentity => exact faithful_authority
  | authorityGrant => exact faithful_grant
  | leaseIdentity => exact faithful_lease
  | leaseRecord => exact faithful_record
  | creationResult => exact faithful_creation
  | leaseCleanupResult => exact faithful_cleanup
  | revocationCommand => exact faithful_command
  | revocationResult => exact faithful_revocation
  | evidence claims => exact faithful_evidence (faithful_claims claims)

section
variable {α β : Type} {bytes : Bytes}

/-- The tag of its kind is in every message, and the rest behind it. -/
theorem written_alike [Wire α] [Wire β] {value : α} {other : β}
    (written : canonicalBytes value = .ok bytes) (written' : canonicalBytes other = .ok bytes) :
    kind α = kind β ∧
      ∃ body, write value = .ok body ∧ write other = .ok body := by
  obtain ⟨body, wrote, rfl, -⟩ := canonicalBytes_ok written
  obtain ⟨_, wrote', same, -⟩ := canonicalBytes_ok written'
  obtain ⟨fronts, rfl⟩ := append_inj same (by simp)
  obtain ⟨-, tags⟩ := append_inj fronts rfl
  exact ⟨head_eq_of_cons_eq tags, body, wrote, wrote'⟩

/-- Names of signers and a claim behind them: the names are the same, and the claims are
    written alike. -/
theorem claims_alike [EvidenceClaims α] [EvidenceClaims β] {evidence : Evidence α}
    {other : Evidence β} (wrote : writeMessage evidence.claims = .ok nested)
    (wrote' : writeMessage other.claims = .ok nested')
    (same : writeId evidence.issuer ++ (writeId evidence.keyId ++ (nested ++ rest)) =
      writeId other.issuer ++ (writeId other.keyId ++ (nested' ++ rest'))) :
    evidence.issuer = other.issuer ∧ evidence.keyId = other.keyId ∧
      ∃ bytes, canonicalBytes evidence.claims = .ok bytes ∧
        canonicalBytes other.claims = .ok bytes := by
  simp only [writeMessage, bind_eq_ok] at wrote wrote'
  obtain ⟨bytes, canonical, blob⟩ := wrote
  obtain ⟨_, canonical', blob'⟩ := wrote'
  obtain ⟨issuers, same⟩ := (reads_id evidence.issuer).unique (reads_id other.issuer) same
  obtain ⟨keyIds, same⟩ := (reads_id evidence.keyId).unique (reads_id other.keyId) same
  obtain ⟨rfl, -⟩ := (reads_blob blob).unique (reads_blob blob') same
  exact ⟨issuers, keyIds, bytes, canonical, canonical'⟩

/-- The claims behind two signatures that are written alike have the same kind. -/
theorem claimed_alike [EvidenceClaims α] [EvidenceClaims β] {evidence : Evidence α}
    {other : Evidence β} (written : write evidence = .ok bytes)
    (written' : write other = .ok bytes) : kind α = kind β := by
  simp only [write, eq_ok] at written written'
  obtain ⟨_, _, _, nested, rfl⟩ := written
  obtain ⟨_, _, _, nested', same⟩ := written'
  simp only [append_assoc, cons_append, List.cons.injEq, true_and] at same
  obtain ⟨-, -, _, canonical, canonical'⟩ := claims_alike nested nested' same.symm
  exact (written_alike canonical canonical').1

end

theorem claimKind_eq {claims other : ClaimKind}
    (same : kind claims.Value = kind other.Value) : claims = other := by
  cases claims <;> cases other <;> first | rfl | exact absurd same (by decide)

def Kind.tag : Kind → UInt8
  | .custodyProfile => 1
  | .custodyContext => 2
  | .custodyMaterialDescriptor => 3
  | .requestBinding => 4
  | .authorityIdentity => 5
  | .authorityGrant => 6
  | .leaseIdentity => 7
  | .leaseRecord => 8
  | .creationResult => 9
  | .leaseCleanupResult => 10
  | .revocationCommand => 11
  | .revocationResult => 12
  | .evidence _ => 13

theorem wire_kind (kind : Kind) : Wire.kind kind.Value = kind.tag := by
  cases kind <;> rfl

/-- The tag is that of one kind, or of a signature over some claims. -/
theorem Kind.tag_eq {kind other : Kind} (same : kind.tag = other.tag) :
    kind = other ∨ ∃ claims claims', kind = .evidence claims ∧ other = .evidence claims' := by
  cases kind <;> cases other <;> simp_all [Kind.tag]

/-- No bytes are written for messages of two kinds. -/
theorem kind_eq {kind other : Kind} {value : kind.Value} {value' : other.Value}
    (written : canonicalBytes value = .ok bytes) (written' : canonicalBytes value' = .ok bytes) :
    kind = other := by
  obtain ⟨tags, _, wrote, wrote'⟩ := written_alike written written'
  rw [wire_kind, wire_kind] at tags
  rcases Kind.tag_eq tags with same | ⟨_, _, rfl, rfl⟩
  · exact same
  · rw [claimKind_eq (claimed_alike wrote wrote')]

/-- The codec is exact on every kind of message: what is written is read back, what is
    accepted was written, and no bytes stand for two messages. -/
theorem custody_codec_exact :
    (∀ (kind : Kind) (value : kind.Value) bytes, kind.Fits value →
      canonicalBytes value = .ok bytes → fromCanonicalBytes bytes = .ok value) ∧
    (∀ (kind : Kind) bytes (value : kind.Value),
      fromCanonicalBytes bytes = .ok value → canonicalBytes value = .ok bytes) ∧
    ∀ (kind other : Kind) bytes (value : kind.Value) (value' : other.Value),
      fromCanonicalBytes bytes = .ok value → fromCanonicalBytes bytes = .ok value' →
      (⟨kind, value⟩ : (kind : Kind) × kind.Value) = ⟨other, value'⟩ := by
  refine ⟨fun kind value bytes fits written => (faithful_kind kind).fromCanonicalBytes fits written,
    fun kind bytes value => canonicalBytes_of_fromCanonicalBytes, ?_⟩
  intro _ _ _ _ _ accepted accepted'
  have same := kind_eq (canonicalBytes_of_fromCanonicalBytes accepted)
    (canonicalBytes_of_fromCanonicalBytes accepted')
  subst same
  rw [Except.ok.inj (accepted.symm.trans accepted')]

def sampleExecutor : ExecutorIncarnation := ⟨Vector.replicate 32 5, by decide⟩

/-- The result of a fence that found two leases. -/
def sampleRevocation : RevocationResult where
  fence := ⟨3⟩
  executor := sampleExecutor
  authority := ⟨sampleName, .securityDomain ⟨"hsm"⟩ sampleName, ⟨4, by decide⟩⟩
  commandSha256 := Vector.replicate 32 6
  inFlight := .furtherReleaseBlocked
  observedLeases := [⟨sampleExecutor, ⟨1, by decide⟩⟩, ⟨sampleExecutor, ⟨9, by decide⟩⟩]

def sampleSigned : Evidence RevocationResult :=
  ⟨sampleName, sampleName, sampleRevocation, Vector.replicate 64 8⟩

theorem custody_codec_exact_signed : ∃ bytes, canonicalBytes sampleSigned = .ok bytes ∧
    fromCanonicalBytes bytes = .ok sampleSigned ∧
    ∀ result : RevocationResult, fromCanonicalBytes bytes ≠ .ok result := by
  have wrote : (canonicalBytes sampleSigned).toOption.isSome = true := by decide +kernel
  obtain ⟨bytes, found⟩ := Option.isSome_iff_exists.mp wrote
  have written := ok_of_toOption found
  have accepted := custody_codec_exact.1 (.evidence .revocationResult) sampleSigned bytes trivial
    written
  refine ⟨bytes, written, accepted, fun _ accepted' => ?_⟩
  cases custody_codec_exact.2.2 (.evidence .revocationResult) .revocationResult bytes _ _ accepted
    accepted'

/-! ### What is signed -/

theorem of_signingBytes {α : Type} [EvidenceClaims α] {evidence : Evidence α}
    (written : evidence.signingBytes = .ok bytes) :
    ∃ claims, writeMessage evidence.claims = .ok claims ∧
      bytes = signatureDomain ++ bigEndian 2 1 ++ [1] ++ writeId evidence.issuer ++
        writeId evidence.keyId ++ claims := by
  simp only [Evidence.signingBytes] at written
  split at written
  all_goals
    simp only [eq_ok] at written
    obtain ⟨_, _, claims, nested, _, _, rfl⟩ := written
    exact ⟨claims, nested, rfl⟩

/-- Evidence with the same transcript is the same but for the signature. -/
theorem transcript_alike {kind other : ClaimKind} {signed : Evidence kind.Value}
    {signed' : Evidence other.Value} (fits : kind.Fits signed.claims)
    (fits' : other.Fits signed'.claims) (written : signed.signingBytes = .ok bytes)
    (written' : signed'.signingBytes = .ok bytes) :
    signed.issuer = signed'.issuer ∧ signed.keyId = signed'.keyId ∧
      (⟨kind, signed.claims⟩ : (kind : ClaimKind) × kind.Value) = ⟨other, signed'.claims⟩ := by
  obtain ⟨claims, nested, rfl⟩ := of_signingBytes written
  obtain ⟨claims', nested', same⟩ := of_signingBytes written'
  rw [← append_nil claims, ← append_nil claims'] at same
  simp only [append_assoc, append_cancel_left_eq] at same
  obtain ⟨issuers, keyIds, _, canonical, canonical'⟩ := claims_alike nested nested' same
  refine ⟨issuers, keyIds, ?_⟩
  have kinds := claimKind_eq (written_alike canonical canonical').1
  subst kinds
  have accepted := (faithful_claims kind).fromCanonicalBytes fits canonical
  have accepted' := (faithful_claims kind).fromCanonicalBytes fits' canonical'
  rw [Except.ok.inj (accepted.symm.trans accepted')]

/-- The transcript determines the signer's names, the kind of the claim and the claim; a
    signature that does not verify over both transcripts authenticates nothing else. -/
theorem transcript_determines_evidence (kind other : ClaimKind) (signed : Evidence kind.Value)
    (signed' : Evidence other.Value) (fits : kind.Fits signed.claims)
    (fits' : other.Fits signed'.claims) :
    (∀ bytes, signed.signingBytes = .ok bytes → signed'.signingBytes = .ok bytes →
      signed.issuer = signed'.issuer ∧ signed.keyId = signed'.keyId ∧
        (⟨kind, signed.claims⟩ : (kind : ClaimKind) × kind.Value) = ⟨other, signed'.claims⟩) ∧
    ∀ [Ed25519] (trusted trusted' : EvidenceKey) claims claims' bytes bytes',
      signed.signingBytes = .ok bytes → signed'.signingBytes = .ok bytes' →
      (Ed25519.verifyStrict trusted.key bytes signed.signature = true →
        Ed25519.verifyStrict trusted.key bytes' signed.signature = true → bytes = bytes') →
      trusted.key = trusted'.key → signed.signature = signed'.signature →
      signed.authenticate trusted = .ok claims → signed'.authenticate trusted' = .ok claims' →
      signed.issuer = signed'.issuer ∧ signed.keyId = signed'.keyId ∧
        (⟨kind, claims⟩ : (kind : ClaimKind) × kind.Value) = ⟨other, claims'⟩ := by
  refine ⟨fun _ => transcript_alike fits fits', ?_⟩
  intro _ _ _ _ _ bytes bytes' written written' binds keys signatures accepted accepted'
  simp only [Evidence.authenticate, written, written', eq_ok, Bool.not_eq_false, Except.ok.injEq,
    exists_eq_left'] at accepted accepted'
  obtain ⟨_, _, _, verified, rfl⟩ := accepted
  obtain ⟨_, _, _, verified', rfl⟩ := accepted'
  rw [← keys, ← signatures] at verified'
  cases binds verified verified'
  exact transcript_alike fits fits' written written'

def checksum (key : VerifyingKey) (message : Bytes) : Signature :=
  Vector.replicate 64 (key.toList ++ message).sum

/-- A sum in place of the signature. -/
abbrev checksums : Ed25519 where
  verifyingKey := id
  sign := checksum
  verifyStrict key message signature := signature == checksum key message

def sampleSigner : EvidenceKey := ⟨sampleName, sampleName, Vector.replicate 32 4⟩

def otherName : WrappingIdentifier := ⟨"other", by decide⟩

def transcript (evidence : Evidence RevocationResult) : Bytes :=
  evidence.signingBytes.toOption.getD []

/-- The sample evidence of an issuer, with the signature over that of the sample issuer. -/
def issuedBy (issuer : WrappingIdentifier) : Evidence RevocationResult :=
  ⟨issuer, sampleName, sampleRevocation, checksum sampleSigner.key (transcript sampleSigned)⟩

attribute [local instance] checksums in
theorem transcript_determines_evidence_sample :
    (issuedBy sampleName).authenticate sampleSigner = .ok sampleRevocation ∧
    ∀ trusted claims, sampleSigner.key = trusted.key →
      (issuedBy otherName).authenticate trusted ≠ .ok claims := by
  have accepted : (issuedBy sampleName).authenticate sampleSigner = .ok sampleRevocation :=
    ok_of_toOption (by decide +kernel)
  refine ⟨accepted, ?_⟩
  intro trusted claims keys accepted'
  have alike := transcript_determines_evidence .revocationResult .revocationResult
    (issuedBy sampleName) (issuedBy otherName) trivial trivial
  have names := alike.2 sampleSigner trusted _ _ (transcript (issuedBy sampleName))
    (transcript (issuedBy otherName)) (ok_of_toOption (by decide +kernel))
    (ok_of_toOption (by decide +kernel)) (fun _ verified => absurd verified (by decide +kernel))
    keys rfl accepted accepted'
  exact absurd names.1 (by decide)

end KeyRack.Custody
