import Veritra.Bytes.BigEndian
import Veritra.Machine.Guard
import Veritra.Model.Uploads.Local

/-! # Messages that one side signs and the other rebuilds

The server rebuilds three messages of the native core byte by byte: the enrolment proof of a device link
(`DeviceLinkV3ProofMessage` and `EnrollmentProof::message`), the proof of an account recovery
(`recoveryProofMessage` and `proof_message`) and what a franking commitment covers (`Commit` and
`frank_commit`). Go strings are their bytes.
-/

namespace Veritra.Signing

open Machine BigEndian
open Uploads (Bytes Sha256)

inductive SigningError
  | enrollmentInvalid | invalidIdentity | recoveryInvalidInput | keySize | invalidInput | reportInvalidInput
  | invalidState
  deriving DecidableEq, Repr

/-- What the checks ask about texts: `ValidDeviceLinkV3Origin`, that they are UTF-8, and that trimming leaves
them as they are. -/
structure TextRules where
  validOrigin : Bytes → Bool
  utf8 : Bytes → Bool
  trimmed : Bytes → Bool

/-- The bytes of a label. -/
def ascii (text : String) : Bytes := text.toList.map fun c => UInt8.ofNat c.toNat

def hexDigit (nibble : UInt8) : UInt8 := if nibble < 10 then 48 + nibble else 87 + nibble

def hexEncode (bytes : Bytes) : Bytes := bytes.flatMap fun byte => [hexDigit (byte / 16), hexDigit (byte % 16)]

def hexValue (digit : UInt8) : Option UInt8 :=
  if 48 ≤ digit ∧ digit ≤ 57 then some (digit - 48)
  else if 97 ≤ digit ∧ digit ≤ 102 then some (digit - 87)
  else if 65 ≤ digit ∧ digit ≤ 70 then some (digit - 55)
  else none

/-- `hex.DecodeString`. -/
def hexDecode : Bytes → Option Bytes
  | [] => some []
  | [_] => none
  | high :: low :: rest => do
    let high ← hexValue high
    let low ← hexValue low
    let bytes ← hexDecode rest
    some ((high * 16 + low) :: bytes)

def validV3Hash (value : Bytes) : Prop :=
  ∃ decoded ∈ hexDecode value, decoded.length = 32 ∧ hexEncode decoded = value
  deriving Decidable

/-- The columns of a claim that its proof covers. -/
structure DeviceLinkV3ClaimInput where
  protocolVersion : Bytes
  serverOrigin : Bytes
  code : Bytes
  reservationRequestID : Bytes
  deviceName : Bytes
  deviceKeyPackage : Bytes
  signingKey : Bytes
  transferPublicKey : Bytes
  transcriptHash : Bytes
  claimTag : Bytes
  claimTokenHash : Bytes
  deviceSecretHash : Bytes
  initialSessionTokenHash : Bytes
  deriving DecidableEq, Repr

structure EnrollmentReservation where
  id : Bytes
  accountID : Bytes
  deviceID : Bytes
  challenge : Bytes
  deriving DecidableEq, Repr

def validV3Name (rules : TextRules) (name : Bytes) : Prop :=
  name ≠ [] ∧ name.length ≤ 64 ∧ rules.utf8 name ∧ rules.trimmed name
  deriving Decidable

/-- The loop over the fields with a prefix: none is empty, and each fits. -/
def appendFields (message : Bytes) : List Bytes → Except SigningError Bytes
  | [] => pure message
  | field :: fields => do
    require (field.length ≠ 0 ∧ field.length ≤ 65535) .enrollmentInvalid
    appendFields (message ++ prefixed 2 field) fields

def deviceLinkV3ProofMessage (rules : TextRules) (sha : Sha256) (input : DeviceLinkV3ClaimInput)
    (reservation : EnrollmentReservation) : Except SigningError Bytes := do
  require (input.protocolVersion = ascii "veritra-device-link-v3" ∧ rules.validOrigin input.serverOrigin ∧
    validV3Hash input.code ∧ validV3Hash input.reservationRequestID ∧ validV3Name rules input.deviceName ∧
    64 ≤ input.deviceKeyPackage.length ∧ input.deviceKeyPackage.length ≤ 48 * 1024 ∧
    input.signingKey.length = 32 ∧ input.transferPublicKey.length = 32 ∧ input.transcriptHash.length = 32 ∧
    input.claimTag.length = 32 ∧ validV3Hash input.claimTokenHash ∧ validV3Hash input.deviceSecretHash ∧
    validV3Hash input.initialSessionTokenHash) .enrollmentInvalid
  let requestID := (hexDecode input.reservationRequestID).getD []
  let message ← appendFields (ascii "veritra-device-link-enrollment-v3")
    [input.serverOrigin, input.code, requestID, reservation.id, reservation.accountID, reservation.deviceID,
      input.deviceName, reservation.challenge]
  let message := [input.signingKey, sha.sum input.deviceKeyPackage, input.transferPublicKey,
    input.transcriptHash, input.claimTag].foldl (· ++ ·) message
  pure ([input.claimTokenHash, input.deviceSecretHash, input.initialSessionTokenHash].foldl
    (fun message hash => message ++ (hexDecode hash).getD []) message)

/-- `[u8; 32]`. -/
abbrev Bytes32 := { bytes : Bytes // bytes.length = 32 }

structure EnrollmentProof where
  origin : Bytes
  locator : Bytes
  reservationRequestID : Bytes32
  linkID : Bytes
  accountID : Bytes
  deviceID : Bytes
  deviceName : Bytes
  challenge : Bytes
  keyPackage : Bytes
  transferPublicKey : Bytes32
  transcriptHash : Bytes32
  claimTag : Bytes32
  claimTokenHash : Bytes32
  deviceSecretHash : Bytes32
  initialSessionTokenHash : Bytes32
  deriving DecidableEq, Repr

/-- `append_transcript_field`, and with its own error `append_length_prefixed`. -/
def appendTranscriptField (refusal : SigningError) (out value : Bytes) : Except SigningError Bytes := do
  require (value.length < 65536) refusal
  pure (out ++ prefixed 2 value)

def EnrollmentProof.message (rules : TextRules) (sha : Sha256) (proof : EnrollmentProof) (signingKey : Bytes) :
    Except SigningError Bytes := do
  require (rules.utf8 proof.deviceName) .invalidIdentity
  require (proof.origin ≠ [] ∧ proof.origin.length ≤ 2048 ∧ (∀ byte ∈ proof.origin, byte < 128) ∧
    proof.locator.length = 64 ∧ (∀ byte ∈ proof.locator, 48 ≤ byte ∧ byte ≤ 57 ∨ 97 ≤ byte ∧ byte ≤ 102) ∧
    proof.linkID ≠ [] ∧ proof.linkID.length ≤ 128 ∧ proof.accountID ≠ [] ∧ proof.accountID.length ≤ 128 ∧
    proof.deviceID ≠ [] ∧ proof.deviceID.length ≤ 128 ∧ proof.deviceName ≠ [] ∧ proof.deviceName.length ≤ 64 ∧
    rules.trimmed proof.deviceName ∧ proof.challenge ≠ [] ∧ proof.challenge.length ≤ 4096 ∧
    64 ≤ proof.keyPackage.length ∧ proof.keyPackage.length ≤ 48 * 1024 ∧ signingKey.length = 32) .invalidIdentity
  let message ← [proof.origin, proof.locator, proof.reservationRequestID.1, proof.linkID, proof.accountID,
    proof.deviceID, proof.deviceName, proof.challenge].foldlM (appendTranscriptField .invalidIdentity)
      (ascii "veritra-device-link-enrollment-v3")
  let message := message ++ signingKey ++ sha.sum proof.keyPackage
  pure ([proof.transferPublicKey, proof.transcriptHash, proof.claimTag, proof.claimTokenHash,
    proof.deviceSecretHash, proof.initialSessionTokenHash].foldl (fun message field => message ++ field.1) message)

/-- `appendLengthPrefixed`: the prefix has the low 16 bits of the length. -/
def appendLengthPrefixed (output value : Bytes) : Bytes := output ++ prefixed 2 value

/-- The server takes the challenge from the reservation and the origin from its configuration. -/
def recoveryProofMessage (sha : Sha256) (challenge signingKey keyPackage origin : Bytes) : Bytes :=
  appendLengthPrefixed
    (appendLengthPrefixed (ascii "veritra-k0-recovery-proof-v1") challenge ++ signingKey ++ sha.sum keyPackage)
    origin

def proofMessage (rules : TextRules) (sha : Sha256) (challenge signingKey keyPackage origin : Bytes) :
    Except SigningError Bytes := do
  require (challenge ≠ [] ∧ challenge.length ≤ 4096 ∧ signingKey.length = 32 ∧ keyPackage ≠ [] ∧
    keyPackage.length ≤ 48 * 1024 ∧ origin ≠ [] ∧ origin.length ≤ 2048 ∧ rules.utf8 origin ∧
    ∀ byte ∈ origin, 32 < byte ∧ byte ≠ 127) .recoveryInvalidInput
  let message ← appendTranscriptField .recoveryInvalidInput (ascii "veritra-k0-recovery-proof-v1") challenge
  appendTranscriptField .recoveryInvalidInput (message ++ signingKey ++ sha.sum keyPackage) origin

structure FrankContext where
  conversationID : Bytes
  senderDeviceID : Bytes
  actionID : Bytes
  deriving DecidableEq, Repr

/-- The message that `Commit` writes into the HMAC. -/
def commitInput (kf : Bytes) (ctx : FrankContext) (payload : Bytes) : Except SigningError Bytes := do
  require (kf.length = 32) .keySize
  require (∀ id ∈ [ctx.conversationID, ctx.senderDeviceID, ctx.actionID], id.length ≠ 0 ∧ id.length ≤ 128)
    .invalidInput
  require (payload.length ≠ 0 ∧ payload.length ≤ 64 * 1024) .invalidInput
  pure ([ctx.conversationID, ctx.senderDeviceID, ctx.actionID, payload].foldl
    (fun message field => message ++ prefixed 4 field) (ascii "veritra-frank-v1"))

def commit (hmac : Bytes → Bytes → Bytes) (kf : Bytes) (ctx : FrankContext) (payload : Bytes) :
    Except SigningError Bytes := (commitInput kf ctx payload).map (hmac kf)

/-- The message that `frank_commit` passes to the HMAC. -/
def frankInput (key conversationID senderDeviceID actionID payload : Bytes) : Except SigningError Bytes := do
  require (key.length = 32 ∧ (∀ id ∈ [conversationID, senderDeviceID, actionID], id ≠ [] ∧ id.length ≤ 128) ∧
    payload ≠ [] ∧ payload.length ≤ 64 * 1024) .reportInvalidInput
  pure ([conversationID, senderDeviceID, actionID, payload].foldl (fun message field => message ++ prefixed 4 field)
    (ascii "veritra-frank-v1"))

def frankCommit (hmac : Bytes → Bytes → Bytes) (key conversationID senderDeviceID actionID payload : Bytes) :
    Except SigningError Bytes := (frankInput key conversationID senderDeviceID actionID payload).map (hmac key)

end Veritra.Signing
