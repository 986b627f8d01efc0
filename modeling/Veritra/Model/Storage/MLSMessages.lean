import Veritra.Model.Storage.CommitBundle

/-! # Single MLS messages

Groups from before rosters were tracked still change through single messages. This module follows
`CreateMLSMessage` of `mls_message_store.go`. A conversation with a recorded group refuses them.
-/

namespace Veritra.Storage

open Relational Machine

structure CreateMLSMessageInput where
  conversationID : ConversationID
  senderAccountID : AccountID
  senderDeviceID : DeviceID
  recipientDeviceID : DeviceID
  revocationDeviceID : DeviceID
  kind : String
  payload : Bytes
  idempotencyKey : String
  deriving DecidableEq, Repr

/-- The two kinds the `kind` column allows. -/
def MLSKind.ofText : String → Option MLSKind
  | "welcome" => some .welcome
  | "commit" => some .commit
  | _ => none

structure CreateMLSMessageResult where
  message : MLSMessage
  duplicate : Bool
  revocationCompletedEventID : EventID
  deriving DecidableEq, Repr

namespace CreateMLSMessageInput

/-- The trimmed form that every check and write uses. -/
def trim (input : CreateMLSMessageInput) : CreateMLSMessageInput :=
  { input with
    conversationID := trimSpace input.conversationID
    recipientDeviceID := trimSpace input.recipientDeviceID
    revocationDeviceID := trimSpace input.revocationDeviceID
    kind := trimSpace input.kind
    idempotencyKey := trimSpace input.idempotencyKey }

/-- The checks made before the transaction begins, apart from the one on the kind. -/
def valid (input : CreateMLSMessageInput) (kind : MLSKind) : Prop :=
  input.conversationID ≠ "" ∧ input.senderAccountID ≠ "" ∧ input.senderDeviceID ≠ "" ∧
  input.payload ≠ [] ∧ input.payload.length ≤ maxMLSHandshake ∧
  input.idempotencyKey ≠ "" ∧ byteLength input.idempotencyKey ≤ 128 ∧
  (kind = .welcome → input.recipientDeviceID ≠ "") ∧
  input.recipientDeviceID ≠ input.senderDeviceID ∧
  (input.revocationDeviceID ≠ "" → kind = .commit ∧ input.recipientDeviceID = "")
  deriving Decidable

end CreateMLSMessageInput

namespace Store

/-- The recipient of a single message: an unrevoked device of a member. -/
def mlsRecipient (s : Store) (conversationID : ConversationID) (recipientDeviceID : DeviceID) :
    Except StoreError (Option MLSDeviceRef) :=
  if recipientDeviceID = "" then .ok none
  else
    match s.devices.find? recipientDeviceID with
    | none => .error .forbidden
    | some d =>
      if d.revokedAt = none ∧ s.isConversationMember conversationID d.accountID then
        .ok (some ⟨d.accountID, d.id⟩)
      else .error .forbidden

/-- Store one commit or Welcome of a group without a recorded roster. -/
def createMLSMessage (s : Store) (now : Time) (id : MLSMessageID) (request : CreateMLSMessageInput) :
    Except StoreError (CreateMLSMessageResult × Store) := do
  let input := request.trim
  let some kind := MLSKind.ofText input.kind | .error .invalidInput
  require (input.valid kind) StoreError.invalidInput
  require (s.isMemberDevice input.conversationID input.senderAccountID input.senderDeviceID)
    StoreError.notMember
  require (¬ s.hasMLSGroup input.conversationID) StoreError.mlsBundleRequired
  match s.mlsMessageByKey input.senderDeviceID input.idempotencyKey with
  | some existing => do
    require (existing.conversationID = input.conversationID ∧ existing.kind = kind ∧
      existing.recipientDeviceID = nullableEmptyString input.recipientDeviceID ∧
      existing.revocationDeviceID = nullableEmptyString input.revocationDeviceID ∧
      existing.payload = input.payload) StoreError.idempotencyConflict
    pure (⟨existing, true, 0⟩, s)
  | none => do
    require (input.revocationDeviceID ≠ "" → s.mlsRevocationCommitAllowed input.conversationID
      input.revocationDeviceID input.senderDeviceID) StoreError.forbidden
    let recipient ← s.mlsRecipient input.conversationID input.recipientDeviceID
    -- Unlike a bundle's Welcome, the event is not narrowed to the recipient device.
    let (message, s) ← s.storeMLSMessage id
      { conversationID := input.conversationID, senderAccountID := input.senderAccountID,
        senderDeviceID := input.senderDeviceID, recipient,
        revocationDeviceID := nullableEmptyString input.revocationDeviceID, kind,
        payload := input.payload, idempotencyKey := input.idempotencyKey, createdAt := now } none
    let (completedEventID, s) :=
      if input.revocationDeviceID ≠ "" then
        s.submitRevocation input.conversationID input.revocationDeviceID message.id
          input.senderDeviceID now
      else (0, s)
    pure (⟨message, false, completedEventID⟩, s)

end Store
end Veritra.Storage
