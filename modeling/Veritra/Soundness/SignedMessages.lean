import Veritra.Model.Signing.Messages

/-! # Both sides sign and check the same bytes

Each message is a label, fields behind their lengths and fields of 32 bytes. Two accepted messages that are
equal have the same fields, and the server's message is the native one.
-/

namespace Veritra.Signing

open Machine BigEndian
open Uploads (Bytes Sha256)

/-- The message is laid out as the label, the fields behind their lengths and the fields of 32 bytes. -/
structure LaidOut (width : ℕ) (label : String) (fields fixed : List Bytes) (message : Bytes) : Prop where
  bytes : message = ascii label ++ (fields.flatMap (prefixed width) ++ fixed.flatten)
  fits : ∀ field ∈ fields, field.length < 256 ^ width
  sized : ∀ field ∈ fixed, field.length = 32

variable {rules : TextRules} {sha : Sha256} {message value start : Bytes} {fields fields' fixed fixed' : List Bytes}
  {width : ℕ} {label : String}

theorem LaidOut.inj (laid : LaidOut width label fields fixed message)
    (laid' : LaidOut width label fields' fixed' message) (count : fields.length = fields'.length)
    (count' : fixed.length = fixed'.length) : fields = fields' ∧ fixed = fixed' := by
  have same := List.append_cancel_left (laid.bytes.symm.trans laid'.bytes)
  obtain ⟨rfl, rest⟩ := fields_inj count laid.fits laid'.fits same
  refine ⟨rfl, List.eq_iff_flatten_eq.mpr ⟨rest, List.ext_getElem (by simpa using count') ?_⟩⟩
  intro i first second
  rw [List.getElem_map, List.getElem_map, laid.sized _ (List.getElem_mem _), laid'.sized _ (List.getElem_mem _)]

theorem appendFields_ok (ok : appendFields start fields = .ok message) :
    message = start ++ fields.flatMap (prefixed 2) ∧ ∀ field ∈ fields, field.length < 256 ^ 2 := by
  induction fields generalizing start with
  | nil =>
    cases ok
    simp
  | cons field fields ih =>
    obtain ⟨⟨-, fits⟩, ok⟩ := require_ok.mp ok
    obtain ⟨rfl, rest⟩ := ih ok
    refine ⟨by rw [List.flatMap_cons, List.append_assoc], List.forall_mem_cons.mpr ⟨?_, rest⟩⟩
    omega

theorem appendTranscriptFields_ok {refusal : SigningError}
    (ok : fields.foldlM (appendTranscriptField refusal) start = .ok message) :
    message = start ++ fields.flatMap (prefixed 2) ∧ ∀ field ∈ fields, field.length < 256 ^ 2 := by
  induction fields generalizing start with
  | nil =>
    cases ok
    simp
  | cons field fields ih =>
    obtain ⟨_, first, ok⟩ := bind_eq_ok.mp ok
    obtain ⟨fits, first⟩ := require_ok.mp first
    cases first
    obtain ⟨rfl, rest⟩ := ih ok
    exact ⟨by rw [List.flatMap_cons, List.append_assoc], List.forall_mem_cons.mpr ⟨fits, rest⟩⟩

/-- Valid texts of one hash are equal. -/
theorem eq_of_hexDecode {value' : Bytes} (valid : validV3Hash value) (valid' : validV3Hash value')
    (same : (hexDecode value).getD [] = (hexDecode value').getD []) : value = value' := by
  obtain ⟨decoded, found, -, rfl⟩ := valid
  obtain ⟨decoded', found', -, rfl⟩ := valid'
  rw [found, found'] at same
  exact congrArg hexEncode same

theorem length_hexDecode (valid : validV3Hash value) : ((hexDecode value).getD []).length = 32 := by
  obtain ⟨decoded, found, length, -⟩ := valid
  rw [found]
  exact length

section Enrollment

variable {input : DeviceLinkV3ClaimInput} {reservation : EnrollmentReservation} {proof : EnrollmentProof}
  {signingKey : Bytes}

theorem deviceLinkV3ProofMessage_ok (ok : deviceLinkV3ProofMessage rules sha input reservation = .ok message) :
    LaidOut 2 "veritra-device-link-enrollment-v3"
      [input.serverOrigin, input.code, (hexDecode input.reservationRequestID).getD [], reservation.id,
        reservation.accountID, reservation.deviceID, input.deviceName, reservation.challenge]
      [input.signingKey, sha.sum input.deviceKeyPackage, input.transferPublicKey, input.transcriptHash,
        input.claimTag, (hexDecode input.claimTokenHash).getD [], (hexDecode input.deviceSecretHash).getD [],
        (hexDecode input.initialSessionTokenHash).getD []] message ∧
    input.protocolVersion = ascii "veritra-device-link-v3" ∧ validV3Hash input.reservationRequestID ∧
    validV3Hash input.claimTokenHash ∧ validV3Hash input.deviceSecretHash ∧
    validV3Hash input.initialSessionTokenHash := by
  obtain ⟨⟨version, -, -, request, -, -, -, key, transfer, transcript, tag, token, secret, session⟩, ok⟩ :=
    require_ok.mp ok
  obtain ⟨_, appended, ok⟩ := bind_eq_ok.mp ok
  obtain ⟨rfl, fits⟩ := appendFields_ok appended
  cases ok
  refine ⟨⟨by simp [List.append_assoc], fits, ?_⟩, version, request, token, secret, session⟩
  simp [key, transfer, transcript, tag, length_hexDecode token, length_hexDecode secret,
    length_hexDecode session, sha.length_sum]

theorem EnrollmentProof.message_ok (ok : proof.message rules sha signingKey = .ok message) :
    LaidOut 2 "veritra-device-link-enrollment-v3"
      [proof.origin, proof.locator, proof.reservationRequestID.1, proof.linkID, proof.accountID, proof.deviceID,
        proof.deviceName, proof.challenge]
      [signingKey, sha.sum proof.keyPackage, proof.transferPublicKey.1, proof.transcriptHash.1, proof.claimTag.1,
        proof.claimTokenHash.1, proof.deviceSecretHash.1, proof.initialSessionTokenHash.1] message := by
  have ok := of_require ok
  obtain ⟨⟨-, -, -, -, -, -, -, -, -, -, -, -, -, -, -, -, -, -, key⟩, ok⟩ := require_ok.mp ok
  obtain ⟨_, appended, ok⟩ := bind_eq_ok.mp ok
  obtain ⟨rfl, fits⟩ := appendTranscriptFields_ok appended
  cases ok
  refine ⟨by simp [List.append_assoc], fits, ?_⟩
  simp [key, sha.length_sum, proof.transferPublicKey.2, proof.transcriptHash.2, proof.claimTag.2,
    proof.claimTokenHash.2, proof.deviceSecretHash.2, proof.initialSessionTokenHash.2]

/-- The claim and the reservation of the server are over the data of the native proof. -/
structure SameData (input : DeviceLinkV3ClaimInput) (reservation : EnrollmentReservation)
    (proof : EnrollmentProof) : Prop where
  origin : input.serverOrigin = proof.origin
  locator : input.code = proof.locator
  request : hexDecode input.reservationRequestID = some proof.reservationRequestID.1
  reservation : reservation = ⟨proof.linkID, proof.accountID, proof.deviceID, proof.challenge⟩
  name : input.deviceName = proof.deviceName
  keyPackage : input.deviceKeyPackage = proof.keyPackage
  transferPublicKey : input.transferPublicKey = proof.transferPublicKey.1
  transcriptHash : input.transcriptHash = proof.transcriptHash.1
  claimTag : input.claimTag = proof.claimTag.1
  claimTokenHash : hexDecode input.claimTokenHash = some proof.claimTokenHash.1
  deviceSecretHash : hexDecode input.deviceSecretHash = some proof.deviceSecretHash.1
  initialSessionTokenHash : hexDecode input.initialSessionTokenHash = some proof.initialSessionTokenHash.1

end Enrollment

theorem recovery_agrees {challenge signingKey keyPackage origin : Bytes}
    (ok : proofMessage rules sha challenge signingKey keyPackage origin = .ok message) :
    recoveryProofMessage sha challenge signingKey keyPackage origin = message := by
  have ok := of_require ok
  obtain ⟨_, first, ok⟩ := bind_eq_ok.mp ok
  cases (require_ok.mp first).2
  cases (require_ok.mp ok).2
  rfl

section Franking

variable {kf payload : Bytes} {ctx : FrankContext}

theorem commitInput_eq_ok : commitInput kf ctx payload = .ok message ↔
    (kf.length = 32 ∧ (∀ id ∈ [ctx.conversationID, ctx.senderDeviceID, ctx.actionID], id.length ≠ 0 ∧
      id.length ≤ 128) ∧ payload.length ≠ 0 ∧ payload.length ≤ 64 * 1024) ∧
    message = ascii "veritra-frank-v1" ++ ([ctx.conversationID, ctx.senderDeviceID, ctx.actionID,
      payload].flatMap (prefixed 4) ++ []) := by
  unfold commitInput
  rw [require_ok, require_ok, require_ok, pure_eq_ok]
  simp [and_assoc, eq_comm]

theorem frankInput_eq_ok : frankInput kf ctx.conversationID ctx.senderDeviceID ctx.actionID payload = .ok message ↔
    commitInput kf ctx payload = .ok message := by
  rw [commitInput_eq_ok]
  unfold frankInput
  rw [require_ok, pure_eq_ok]
  simp [and_assoc, eq_comm, List.length_eq_zero_iff]

theorem commitInput_laidOut (ok : commitInput kf ctx payload = .ok message) : LaidOut 4 "veritra-frank-v1"
    [ctx.conversationID, ctx.senderDeviceID, ctx.actionID, payload] [] message := by
  obtain ⟨⟨-, ids, -, small⟩, rfl⟩ := commitInput_eq_ok.mp ok
  refine ⟨rfl, ?_, by simp⟩
  intro field mem
  have bounded : ∀ id ∈ [ctx.conversationID, ctx.senderDeviceID, ctx.actionID], id.length ≤ 64 * 1024 :=
    fun id listed => (ids id listed).2.trans (by decide)
  have short : field.length ≤ 64 * 1024 := by
    rcases List.mem_append.mp (show field ∈ [_, _, _] ++ [payload] from mem) with id | last
    · exact bounded field id
    · exact List.mem_singleton.mp last ▸ small
  omega

end Franking

/-- On what both sides accept they build the same three messages, and every message determines its fields. -/
structure SignedBytesAgree (rules : TextRules) (sha : Sha256) : Prop where
  enrollment : ∀ input reservation proof rebuilt signed, SameData input reservation proof →
    deviceLinkV3ProofMessage rules sha input reservation = .ok rebuilt →
    proof.message rules sha input.signingKey = .ok signed → rebuilt = signed
  recovery : ∀ challenge signingKey keyPackage origin signed,
    proofMessage rules sha challenge signingKey keyPackage origin = .ok signed →
    recoveryProofMessage sha challenge signingKey keyPackage origin = signed
  franking : ∀ kf ctx payload message, commitInput kf ctx payload = .ok message ↔
    frankInput kf ctx.conversationID ctx.senderDeviceID ctx.actionID payload = .ok message
  commitment : ∀ hmac kf ctx payload value, commit hmac kf ctx payload = .ok value ↔
    frankCommit hmac kf ctx.conversationID ctx.senderDeviceID ctx.actionID payload = .ok value
  claimInjective : ∀ input input' reservation reservation' message,
    deviceLinkV3ProofMessage rules sha input reservation = .ok message →
    deviceLinkV3ProofMessage rules sha input' reservation' = .ok message →
    input' = { input with deviceKeyPackage := input'.deviceKeyPackage } ∧
      sha.sum input'.deviceKeyPackage = sha.sum input.deviceKeyPackage ∧ reservation' = reservation
  proofInjective : ∀ (proof proof' : EnrollmentProof) signingKey signingKey' message,
    proof.message rules sha signingKey = .ok message → proof'.message rules sha signingKey' = .ok message →
    proof' = { proof with keyPackage := proof'.keyPackage } ∧
      sha.sum proof'.keyPackage = sha.sum proof.keyPackage ∧ signingKey' = signingKey
  recoveryInjective : ∀ challenge challenge' signingKey signingKey' keyPackage keyPackage' origin origin' message,
    proofMessage rules sha challenge signingKey keyPackage origin = .ok message →
    proofMessage rules sha challenge' signingKey' keyPackage' origin' = .ok message →
    challenge = challenge' ∧ signingKey = signingKey' ∧ sha.sum keyPackage = sha.sum keyPackage' ∧ origin = origin'
  frankingInjective : ∀ kf kf' ctx ctx' payload payload' message, commitInput kf ctx payload = .ok message →
    commitInput kf' ctx' payload' = .ok message → ctx = ctx' ∧ payload = payload'

theorem signed_bytes_agree (rules : TextRules) (sha : Sha256) : SignedBytesAgree rules sha where
  enrollment input reservation proof rebuilt signed same ok ok' := by
    rw [(deviceLinkV3ProofMessage_ok ok).1.bytes, (EnrollmentProof.message_ok ok').bytes, same.origin, same.locator,
      same.request, same.reservation, same.name, same.keyPackage, same.transferPublicKey, same.transcriptHash,
      same.claimTag, same.claimTokenHash, same.deviceSecretHash, same.initialSessionTokenHash]
    rfl
  recovery _ _ _ _ _ ok := recovery_agrees ok
  franking _ _ _ _ := frankInput_eq_ok.symm
  commitment hmac kf ctx payload value := by
    unfold commit frankCommit
    rw [map_eq_ok, map_eq_ok]
    simp only [frankInput_eq_ok]
  claimInjective input input' reservation reservation' message ok ok' := by
    obtain ⟨laid, version, request, token, secret, session⟩ := deviceLinkV3ProofMessage_ok ok
    obtain ⟨laid', version', request', token', secret', session'⟩ := deviceLinkV3ProofMessage_ok ok'
    obtain ⟨fields, fixed⟩ := laid'.inj laid rfl rfl
    cases input'
    cases reservation'
    simp only [List.cons.injEq, and_true] at fields fixed
    obtain ⟨rfl, rfl, sameRequest, rfl, rfl, rfl, rfl, rfl⟩ := fields
    obtain ⟨rfl, package, rfl, rfl, rfl, sameToken, sameSecret, sameSession⟩ := fixed
    cases version.trans version'.symm
    cases eq_of_hexDecode request' request sameRequest
    cases eq_of_hexDecode token' token sameToken
    cases eq_of_hexDecode secret' secret sameSecret
    cases eq_of_hexDecode session' session sameSession
    exact ⟨rfl, package, rfl⟩
  proofInjective proof proof' signingKey signingKey' message ok ok' := by
    obtain ⟨fields, fixed⟩ := (EnrollmentProof.message_ok ok').inj (EnrollmentProof.message_ok ok) rfl rfl
    cases proof'
    simp only [List.cons.injEq, and_true, Subtype.val_inj] at fields fixed
    obtain ⟨rfl, rfl, rfl, rfl, rfl, rfl, rfl, rfl⟩ := fields
    obtain ⟨rfl, package, rfl, rfl, rfl, rfl, rfl, rfl⟩ := fixed
    exact ⟨rfl, package, rfl⟩
  recoveryInjective challenge challenge' signingKey signingKey' keyPackage keyPackage' origin origin' message ok ok' := by
    have same := (recovery_agrees ok).trans (recovery_agrees ok').symm
    obtain ⟨-, short, key, -, -, -, small, -⟩ := (require_ok.mp ok).1
    obtain ⟨-, short', key', -, -, -, small', -⟩ := (require_ok.mp ok').1
    simp only [recoveryProofMessage, appendLengthPrefixed, List.append_assoc] at same
    obtain ⟨rfl, keys⟩ := prefixed_inj (by omega) (by omega) (List.append_cancel_left same)
    obtain ⟨rfl, packages⟩ := List.append_inj keys (key.trans key'.symm)
    obtain ⟨package, origins⟩ := List.append_inj packages (by rw [sha.length_sum, sha.length_sum])
    rw [← List.append_nil (prefixed 2 origin), ← List.append_nil (prefixed 2 origin')] at origins
    exact ⟨rfl, rfl, package, (prefixed_inj (by omega) (by omega) origins).1⟩
  frankingInjective kf kf' ctx ctx' payload payload' message ok ok' := by
    obtain ⟨fields, -⟩ := (commitInput_laidOut ok).inj (commitInput_laidOut ok') rfl rfl
    cases ctx'
    simp only [List.cons.injEq, and_true] at fields
    obtain ⟨rfl, rfl, rfl, rfl⟩ := fields
    exact ⟨rfl, rfl⟩

namespace Example

def homeRules : TextRules := ⟨(· = ascii "https://veritra.example"), fun _ => true, fun _ => true⟩

def zeroSha : Sha256 := ⟨fun _ => List.replicate 32 0, fun _ => List.length_replicate⟩

def filled (byte : UInt8) : Bytes32 := ⟨List.replicate 32 byte, List.length_replicate⟩

/-- The proof of Alice's tablet. -/
def proof : EnrollmentProof :=
  ⟨ascii "https://veritra.example", hexEncode (filled 1).1, filled 2, ascii "link", ascii "alice", ascii "tablet",
    ascii "Alice's tablet", ascii "challenge", List.replicate 64 0, filled 3, filled 4, filled 5, filled 6, filled 7,
    filled 8⟩

def reservation : EnrollmentReservation := ⟨proof.linkID, proof.accountID, proof.deviceID, proof.challenge⟩

/-- The claim that the tablet sends with it. -/
def claim : DeviceLinkV3ClaimInput :=
  ⟨ascii "veritra-device-link-v3", proof.origin, proof.locator, hexEncode (filled 2).1, proof.deviceName,
    proof.keyPackage, (filled 9).1, (filled 3).1, (filled 4).1, (filled 5).1, hexEncode (filled 6).1,
    hexEncode (filled 7).1, hexEncode (filled 8).1⟩

end Example

section

open Example

/-- Both sides accept the tablet's data. -/
example : SameData claim reservation proof ∧ (deviceLinkV3ProofMessage homeRules zeroSha claim reservation).isOk ∧
    (proof.message homeRules zeroSha claim.signingKey).isOk :=
  ⟨by constructor <;> decide +kernel, by decide +kernel, by decide +kernel⟩

example : (proofMessage homeRules zeroSha proof.challenge claim.signingKey proof.keyPackage proof.origin).isOk := by
  decide +kernel

example : (commitInput (filled 1).1 ⟨ascii "group", ascii "phone", ascii "action"⟩ (ascii "payload")).isOk := by
  decide +kernel

end

end Veritra.Signing
