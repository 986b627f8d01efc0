import Veritra.Model.Signing.Messages

/-! # The transcripts that people and devices compare

What is hashed into the safety number of a conversation (`conversation_safety_number_v2`) and into the short
texts of a device link (`derive_device_link_verification` and `LinkContext::transcript`), and the identity that
a credential carries. The hashing of a transcript is left out.
-/

namespace Veritra.Signing

open Machine BigEndian
open Uploads (Bytes)

def maxIDBytes : ℕ := 128

/-- `MAX_ID_BYTES` bounds an id, and none is empty. -/
def validID (id : Bytes) : Prop := id ≠ [] ∧ id.length ≤ maxIDBytes
  deriving Decidable

def appendTranscriptFields (start : Bytes) (fields : List Bytes) : Except SigningError Bytes :=
  fields.foldlM (appendTranscriptField .invalidIdentity) start

def deviceLinkTranscriptDomain : Bytes := ascii "veritra-device-link-transcript"

def deviceLinkProtocolVersion : Bytes := ascii "veritra-device-link-v2"

/-- What `derive_device_link_verification` puts into its transcript. -/
structure DeviceLinkInput where
  protocolVersion : Bytes
  serverOrigin : Bytes
  linkID : Bytes
  accountID : Bytes
  linkNonce : Bytes
  existingDeviceID : Bytes
  existingSigningPublicKey : Bytes
  newDeviceID : Bytes
  newSigningPublicKey : Bytes
  deriving DecidableEq, Repr

def DeviceLinkInput.transcript (input : DeviceLinkInput) (linkSecret : Bytes) : Except SigningError Bytes := do
  require (input.serverOrigin ≠ [] ∧ input.serverOrigin.length ≤ 2048 ∧ validID input.linkID ∧
    linkSecret.length = 16 ∧ input.protocolVersion = deviceLinkProtocolVersion ∧ validID input.accountID ∧
    validID input.existingDeviceID ∧ validID input.newDeviceID ∧ input.linkNonce.length = 32 ∧
    input.existingSigningPublicKey.length = 32 ∧ input.newSigningPublicKey.length = 32) .invalidIdentity
  appendTranscriptFields [] [deviceLinkTranscriptDomain, input.protocolVersion, input.serverOrigin, input.linkID,
    input.accountID, input.linkNonce, input.existingDeviceID, input.existingSigningPublicKey, input.newDeviceID,
    input.newSigningPublicKey]

def linkV3Version : Bytes := ascii "veritra-device-link-v3"

structure LinkContext where
  origin : Bytes
  linkID : Bytes
  accountID : Bytes
  nonce : Bytes32
  sourceDeviceID : Bytes
  sourceSigningKey : Bytes32
  recipientDeviceID : Bytes
  recipientSigningKey : Bytes32
  transferPublicKey : Bytes32
  deriving DecidableEq, Repr

def LinkContext.validate (context : LinkContext) : Except SigningError Unit :=
  require (context.origin ≠ [] ∧ context.origin.length ≤ 2048 ∧ (∀ byte ∈ context.origin, byte < 128) ∧
    validID context.linkID ∧ validID context.accountID ∧ validID context.sourceDeviceID ∧
    validID context.recipientDeviceID ∧ context.sourceDeviceID ≠ context.recipientDeviceID ∧
    context.sourceSigningKey ≠ context.recipientSigningKey) .invalidIdentity

def LinkContext.transcript (context : LinkContext) : Except SigningError Bytes := do
  context.validate
  appendTranscriptFields [] [deviceLinkTranscriptDomain, linkV3Version, context.origin, context.linkID,
    context.accountID, context.nonce.1, context.sourceDeviceID, context.sourceSigningKey.1,
    context.recipientDeviceID, context.recipientSigningKey.1, context.transferPublicKey.1]

/-- A credential and a signature key. -/
abbrev GroupMember := Bytes × Bytes

/-- `entries.sort()`, in the order of their bytes. -/
def sortEntries (entries : List Bytes) : List Bytes :=
  entries.insertionSort fun first second => first.map UInt8.toNat ≤ second.map UInt8.toNat

def memberEntries (members : List GroupMember) : Except SigningError (List Bytes) :=
  members.mapM fun member => appendTranscriptFields [] [member.1, member.2]

def conversationSafetyTranscript (groupID : Bytes) (members : List GroupMember) : Except SigningError Bytes := do
  let entries := sortEntries (← memberEntries members)
  -- `windows(2)`: a repeated member is next to its copy.
  require (∀ pair ∈ entries.zip entries.tail, pair.1 ≠ pair.2) .invalidState
  require (entries.length < 2 ^ 32) .invalidState
  let transcript ← appendTranscriptFields [] [ascii "veritra-conversation-safety-v2", groupID]
  appendTranscriptFields (transcript ++ put 4 entries.length) entries

def credentialFormatVersion : UInt8 := 1

def encodeDeviceIdentity (accountID deviceID : Bytes) : Except SigningError Bytes := do
  require (validID accountID ∧ validID deviceID) .invalidIdentity
  pure (credentialFormatVersion :: (prefixed 2 accountID ++ prefixed 2 deviceID))

/-- Where the field that the input starts with ends. -/
def identityField (input : Bytes) : Except SigningError ℕ := do
  require (2 ≤ input.length) .invalidIdentity
  let length := get (input.take 2)
  require (length ≠ 0 ∧ length ≤ maxIDBytes ∧ 2 + length ≤ input.length) .invalidIdentity
  pure (2 + length)

def decodeDeviceIdentity : Bytes → Except SigningError (Bytes × Bytes)
  | [] => throw .invalidIdentity
  | version :: rest => do
    require (version = credentialFormatVersion) .invalidIdentity
    let stop ← identityField rest
    let account := (rest.take stop).drop 2
    let rest := rest.drop stop
    let stop ← identityField rest
    require (stop = rest.length) .invalidIdentity
    pure (account, (rest.take stop).drop 2)

end Veritra.Signing
