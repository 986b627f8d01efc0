import Veritra.Model.Storage.Community

/-! # Message envelopes

Sending, editing, deleting and expiring message envelopes, from `message_store.go`. Each version of
a message is copied, ciphertext included, into a sync event; the log keeps the event when the
message is deleted or expires, but its copy is redacted. Push jobs are outside the model.
-/

namespace Veritra.Storage

open Relational Machine

/-- `redactMessageSyncEventsSQL`: keep the identifiers that readers still need. -/
def SyncEvent.redact (e : SyncEvent) : SyncEvent :=
  { e with
    payload := .redacted e.payload.messageID (e.payload.conversationID.or e.conversationID)
      e.payload.senderAccountID }

/-- The event holds a copy of the message's envelope. -/
def SyncEvent.copies (e : SyncEvent) (messageID : MessageID) : Prop :=
  e.eventType.isMessageEnvelope ∧ e.payload.messageID = some messageID ∧ e.payload.envelope ≠ none
  deriving Decidable

/-- The envelope is not expired at `now`. -/
def MessageEnvelope.unexpired (message : MessageEnvelope) (now : Time) : Prop :=
  ∀ expiresAt ∈ message.expiresAt, now < expiresAt
  deriving Decidable

/-- The text `{}` that stands in for absent metadata. -/
def emptyMetadata : CryptoMetadata := ⟨"\x7b\x7d", none⟩

/-- The text that marks a deleted message when the caller gives no metadata. -/
def deletedMetadata : CryptoMetadata := ⟨"\x7b\"deleted\":true\x7d", none⟩

def emptyAttachmentRefs : AttachmentRefs := ⟨"[]", some []⟩

/-- The request with the texts that stand in for absent ones. -/
def MessageEnvelope.filled (request : MessageEnvelope) : MessageEnvelope :=
  { request with
    cryptoMetadata := if request.cryptoMetadata.raw = "" then emptyMetadata else request.cryptoMetadata
    attachmentRefs := if request.attachmentRefs.raw = "" then emptyAttachmentRefs
      else request.attachmentRefs }

/-- The id an attachment reference names, trimmed. -/
def AttachmentRef.id : AttachmentRef → AttachmentID
  | text id => trimSpace id
  | object (some id) => trimSpace id
  | object none => trimSpace ""
  | other => trimSpace ""

/-- At most twenty references, each naming a different attachment. -/
def parseAttachmentIDs (refs : AttachmentRefs) : Except StoreError (List AttachmentID) :=
  match refs.refs with
  | none => .error .invalidInput
  | some refs => do
    require (refs.length ≤ 20) StoreError.invalidInput
    let ids := refs.map (·.id)
    require ("" ∉ ids ∧ ids.Nodup) StoreError.invalidInput
    pure ids

/-- A retry carries the message that is stored. -/
def sameIdempotentMessage (existing requested : MessageEnvelope) : Prop :=
  existing.conversationID = requested.conversationID ∧
  existing.senderAccountID = requested.senderAccountID ∧
  existing.senderDeviceID = requested.senderDeviceID ∧
  existing.cryptoProtocol = requested.cryptoProtocol ∧
  existing.ciphertext = requested.ciphertext ∧
  existing.cryptoMetadata.raw = requested.cryptoMetadata.raw ∧
  existing.attachmentRefs.raw = requested.attachmentRefs.raw ∧
  existing.replyToID = requested.replyToID ∧
  existing.threadRootID = requested.threadRootID
  deriving Decidable

structure SavedMessage where
  envelope : MessageEnvelope
  duplicate : Bool
  eventID : EventID
  recipients : List AccountID
  deriving DecidableEq, Repr

namespace Store

/-- Redact the events that `p` selects. -/
def redactEvents (s : Store) (p : SyncEvent → Prop) [DecidablePred p] : Store :=
  { s with events := s.events.update p SyncEvent.redact }

/-- Delete the messages that `p` selects. Their attachment links go with them, and messages that
refer to them lose the reference. -/
def deleteMessages (s : Store) (p : MessageEnvelope → Prop) [DecidablePred p] : Store :=
  let gone (id : Option MessageID) : Prop := ∃ m ∈ s.messages, p m ∧ id = some m.id
  { s with
    messages := ((s.messages.delete p).update (fun m => gone m.replyToID)
      fun m => { m with replyToID := none }).update (fun m => gone m.threadRootID)
        fun m => { m with threadRootID := none }
    messageAttachments := s.messageAttachments.delete fun link =>
      ∃ m ∈ s.messages, p m ∧ m.id = link.messageID }

/-- Remove the device's expired envelope under the key, with the ciphertext in its events. -/
def deleteExpiredMessageByIdempotency (s : Store) (deviceID : DeviceID) (idempotencyKey : String)
    (now : Time) : Store :=
  match s.messages.findIndex? (deviceID, idempotencyKey) with
  | none => s
  | some message =>
    if message.unexpired now then s
    else
      (s.redactEvents fun e => e.conversationID = some message.conversationID ∧
        e.copies message.id).deleteMessages (·.id = message.id)

def postingRestricted (s : Store) (conversation : Conversation) : Prop :=
  conversation.postingPolicy = .admins ∨
    ∃ channel ∈ s.channels, conversation.channelID = some channel.id ∧ channel.kind = .announcement
  deriving Decidable

/-- A reply or thread reference names a live message of the same conversation. -/
def validReference (s : Store) (conversationID : ConversationID) (now : Time)
    (referenceID : Option MessageID) : Prop :=
  ∀ id ∈ referenceID, isBlank id ∨ ∃ m ∈ s.messages, m.id = id ∧ m.deletedAt = none ∧
    m.unexpired now ∧ m.conversationID = conversationID
  deriving Decidable

/-- The earlier of the requested expiry and the conversation's retention. -/
def messageExpiry (conversation : Conversation) (now : Time) (requested : Option Time) : Option Time :=
  match conversation.retentionSeconds, requested with
  | none, requested => requested
  | some retention, none => some (now + retention * second)
  | some retention, some requested => some (min requested (now + retention * second))

/-- The members who have not blocked the sender. -/
def messageRecipients (s : Store) (conversationID : ConversationID) (senderAccountID : AccountID) :
    List AccountID :=
  ((s.memberships.rows.filter fun m => m.scope = .conversation conversationID ∧
    ¬ ∃ b ∈ s.blocks, b.blockerAccountID = m.accountID ∧ b.blockedAccountID = senderAccountID).map
      (·.accountID)).insertionSort (· ≤ ·)

/-- Insert the message row and its attachment links. -/
def insertMessage (s : Store) (envelope : MessageEnvelope) (attachmentIDs : List AttachmentID) :
    Except StoreError Store := do
  require (envelope.ciphertext ≠ []) StoreError.checkConstraint
  require (∃ d ∈ s.devices, d.id = envelope.senderDeviceID) StoreError.foreignKeyConstraint
  match s.messages.insert? { envelope with
      replyToID := nullableString envelope.replyToID
      threadRootID := nullableString envelope.threadRootID
      editedAt := none
      deletedAt := none } with
  | none => .error .uniqueConstraint
  | some messages =>
    attachmentIDs.foldlM (fun s attachmentID =>
      match s.messageAttachments.insert? ⟨envelope.id, attachmentID⟩ with
      | some messageAttachments => .ok { s with messageAttachments }
      | none => .error .invalidInput) { s with messages }

/-- Record an optional message event with a copy of the envelope. -/
def insertMessageEvent (s : Store) (eventType : Option EventType) (envelope : MessageEnvelope)
    (now : Time) : EventID × Store :=
  match eventType with
  | none => (0, s)
  | some eventType => s.insertSyncEvent eventType none (some envelope.conversationID)
    (.message envelope.id envelope.conversationID envelope) now

/-- Store a message that is not a retry. -/
def saveNewMessage (s : Store) (now : Time) (newID : MessageID) (withSyncEvent : Bool)
    (envelope : MessageEnvelope) (attachmentIDs : List AttachmentID) :
    Except StoreError (SavedMessage × Store) := do
  let some sender := s.membership? envelope.senderAccountID (.conversation envelope.conversationID)
    | .error .notMember
  let some conversation := s.conversations.find? envelope.conversationID | .error .notFound
  require (s.postingRestricted conversation → sender.role.canManageInvites) StoreError.postingRestricted
  require (s.validReference envelope.conversationID now envelope.replyToID ∧
    s.validReference envelope.conversationID now envelope.threadRootID) StoreError.invalidInput
  let envelope := { envelope with
    id := if envelope.id = "" then newID else envelope.id
    createdAt := now
    expiresAt := messageExpiry conversation now envelope.expiresAt }
  let s ← s.insertMessage envelope attachmentIDs
  let (eventID, s) := s.insertMessageEvent
    (if withSyncEvent then some .messageEnvelopeCreated else none) envelope now
  pure (⟨envelope, false, eventID,
    if withSyncEvent then s.messageRecipients envelope.conversationID envelope.senderAccountID else []⟩, s)

/-- Store a message, or answer a retry of a stored one. An expired message under the same key is
replaced. -/
def saveMessageEnvelope (s : Store) (now : Time) (newID : MessageID) (withSyncEvent : Bool)
    (request : MessageEnvelope) : Except StoreError (SavedMessage × Store) := do
  let envelope := request.filled
  let attachmentIDs ← parseAttachmentIDs envelope.attachmentRefs
  require (∀ id ∈ attachmentIDs, ∃ a ∈ s.attachments, a.id = id ∧
    a.ownerAccountID = envelope.senderAccountID ∧ a.conversationID = some envelope.conversationID)
    StoreError.invalidInput
  let s := s.deleteExpiredMessageByIdempotency envelope.senderDeviceID envelope.idempotencyKey now
  match s.messages.findIndex? (envelope.senderDeviceID, envelope.idempotencyKey) with
  | some existing => do
    require (sameIdempotentMessage existing envelope) StoreError.idempotencyConflict
    pure (⟨existing, true, 0, []⟩, s)
  | none => s.saveNewMessage now newID withSyncEvent envelope attachmentIDs

/-- The account may change the message: its own, live and in a conversation it belongs to. -/
def mayMutate (s : Store) (messageID : MessageID) (accountID : AccountID) (now : Time)
    (m : MessageEnvelope) : Prop :=
  m.id = messageID ∧ m.senderAccountID = accountID ∧ m.deletedAt = none ∧ m.unexpired now ∧
    s.isConversationMember m.conversationID accountID
  deriving Decidable

/-- Change the caller's own live message and return the new version. -/
def mutateMessage (s : Store) (messageID : MessageID) (accountID : AccountID) (now : Time)
    (change : MessageEnvelope → MessageEnvelope) (keeps : ∀ m, (change m).id = m.id)
    (keepsKey : ∀ m, (change m).sendKey = m.sendKey) :
    Except StoreError (MessageEnvelope × Store) :=
  match s.messages.find? messageID with
  | none => .error .notFound
  | some message =>
    if s.mayMutate messageID accountID now message then
      .ok (change message,
        { s with messages := s.messages.update (s.mayMutate messageID accountID now) change keeps keepsKey })
    else if message.unexpired now then .error .forbidden
    else .error .notFound

def updateMessageEnvelope (s : Store) (now : Time) (messageID : MessageID) (accountID : AccountID)
    (ciphertext : Bytes) (cryptoProtocol : String) (cryptoMetadata : CryptoMetadata)
    (eventType : Option EventType) : Except StoreError ((MessageEnvelope × EventID) × Store) := do
  require (ciphertext ≠ [] ∧ ¬ isBlank cryptoProtocol) StoreError.forbidden
  let cryptoMetadata := if cryptoMetadata.raw = "" then emptyMetadata else cryptoMetadata
  let (envelope, s) ← s.mutateMessage messageID accountID now
    (fun m => { m with ciphertext, cryptoProtocol, cryptoMetadata, editedAt := some now })
    (fun _ => rfl) (fun _ => rfl)
  let (eventID, s) := s.insertMessageEvent eventType envelope now
  pure ((envelope, eventID), s)

/-- The id of the message's created event, or 0 when retention already pruned it. -/
def messageCreatedEventID (s : Store) (conversationID : ConversationID) (messageID : MessageID)
    (createdAt : Time) : EventID :=
  (((s.events.rows.filter fun e => e.conversationID = some conversationID ∧
    e.eventType = .messageEnvelopeCreated ∧ e.createdAt = createdAt ∧
    e.payload.messageID = some messageID).map (·.id)).getLast?).getD 0

/-- Drop the attachment links of a message that became a tombstone, delete the attachments nothing
links any more, and queue their blobs for deletion. -/
def releaseMessageAttachments (s : Store) (messageID : MessageID) : Store :=
  let released := s.attachments.rows.filter fun a =>
    ∃ link ∈ s.messageAttachments, link.messageID = messageID ∧ link.attachmentID = a.id
  let messageAttachments := s.messageAttachments.delete (·.messageID = messageID)
  let deleted := released.filter fun a => ¬ ∃ link ∈ messageAttachments, link.attachmentID = a.id
  (deleted.map (·.storageKey)).foldl enqueueBlobDeletion
    { s with
      messageAttachments
      attachments := s.attachments.delete fun a => ∃ d ∈ deleted, d.id = a.id }

/-- Turn a message into a tombstone with a marker and redact the ciphertext in its events. -/
def deleteMessageEnvelope (s : Store) (now : Time) (messageID : MessageID) (accountID : AccountID)
    (markerCiphertext : Bytes) (cryptoProtocol : String) (cryptoMetadata : CryptoMetadata)
    (eventType : Option EventType) : Except StoreError ((MessageEnvelope × EventID) × Store) := do
  require (markerCiphertext ≠ [] ∧ ¬ isBlank cryptoProtocol) StoreError.forbidden
  let cryptoMetadata := if cryptoMetadata.raw = "" then deletedMetadata else cryptoMetadata
  let (envelope, s) ← s.mutateMessage messageID accountID now
    (fun m => { m with
      ciphertext := markerCiphertext, cryptoProtocol, cryptoMetadata, deletedAt := some now,
      attachmentRefs := emptyAttachmentRefs })
    (fun _ => rfl) (fun _ => rfl)
  let s := s.releaseMessageAttachments messageID
  let created := s.messageCreatedEventID envelope.conversationID messageID envelope.createdAt
  let s := s.redactEvents fun e => e.conversationID = some envelope.conversationID ∧ created ≤ e.id ∧
    e.eventType.isMessageVersion ∧ e.payload.messageID = some messageID ∧ e.payload.envelope ≠ none
  let (eventID, s) := s.insertMessageEvent eventType envelope now
  pure ((envelope, eventID), s)

/-- `ORDER BY expires_at, id`. -/
def expiryOrder (left right : MessageEnvelope) : Prop :=
  left.expiresAt.getD 0 < right.expiresAt.getD 0 ∨ (left.expiresAt.getD 0 = right.expiresAt.getD 0 ∧ left.id ≤ right.id)
  deriving Decidable

/-- `ORDER BY created_at, id`. -/
def attachmentOrder (left right : AttachmentEnvelope) : Prop :=
  left.createdAt < right.createdAt ∨ (left.createdAt = right.createdAt ∧ left.id ≤ right.id)
  deriving Decidable

/-- One sweep takes at most this many rows. -/
def pruneBatch : ℕ := 500

/-- How many event ids one sweep's backfill covers. -/
def redactBackfillWindow : ℕ := 2000

def orphanedAttachmentGrace : Time := 24 * 60 * 60 * second

def expiredMessages (s : Store) (now : Time) : List MessageEnvelope :=
  ((s.messages.rows.filter fun m => ¬ m.unexpired now).insertionSort expiryOrder).take pruneBatch

/-- Redact the copies of messages that are gone or deleted, in the next window of event ids, and
return the cursor of the next call. -/
def redactOrphanedMessageEvents (s : Store) : EventID × Store :=
  match (s.events.rows.map (·.id)).find? (fun id => s.redactCursor < id) with
  | none => (0, s)
  | some first =>
    let last := first + redactBackfillWindow - 1
    (last, s.redactEvents fun e => first ≤ e.id ∧ e.id ≤ last ∧ e.eventType.isMessageEnvelope ∧
      e.payload.envelope ≠ none ∧
      ¬ ∃ m ∈ s.messages, e.payload.messageID = some m.id ∧
        (m.deletedAt = none ∨ e.eventType = .messageEnvelopeDeleted))

/-- Delete a page of expired messages with their attachments, redact the ciphertext in their
events, and reap uploads that were never linked. Returns the number of messages and the storage
keys to delete. -/
def pruneExpiredContent (s : Store) (now : Time) : (ℕ × List String) × Store :=
  let expired := s.expiredMessages now
  let isExpired (id : MessageID) : Prop := ∃ m ∈ expired, m.id = id
  let linked := s.attachments.rows.filter fun a =>
    ∃ link ∈ s.messageAttachments, isExpired link.messageID ∧ link.attachmentID = a.id
  let messageAttachments := s.messageAttachments.delete fun link => isExpired link.messageID
  let attachments := s.attachments.delete fun a => (∃ l ∈ linked, l.id = a.id) ∧
    ¬ ∃ link ∈ messageAttachments, link.attachmentID = a.id
  let storageKeys := (linked.map (·.storageKey)).filter fun key =>
    ¬ ∃ a ∈ attachments, a.storageKey = key
  let s := { s with messageAttachments, attachments }
  let s := s.redactEvents fun e => (∃ m ∈ expired, e.conversationID = some m.conversationID) ∧
    ∃ m ∈ expired, e.copies m.id
  let (backfillTo, s) := s.redactOrphanedMessageEvents
  let s := s.deleteMessages fun m => isExpired m.id
  let orphans := ((s.attachments.rows.filter fun a =>
    a.createdAt < now - orphanedAttachmentGrace ∧
      ¬ ∃ link ∈ s.messageAttachments, link.attachmentID = a.id).insertionSort attachmentOrder).take pruneBatch
  let s := { s with attachments := s.attachments.delete fun a => ∃ o ∈ orphans, o.id = a.id }
  let storageKeys := storageKeys ++ orphans.map (·.storageKey)
  let s := storageKeys.foldl enqueueBlobDeletion s
  ((expired.length, storageKeys), { s with redactCursor := backfillTo })

/-- Record an uploaded attachment that the storage quota has admitted. -/
def createAttachmentEnvelope (s : Store) (now : Time) (attachment : AttachmentEnvelope) :
    Except StoreError (Unit × Store) := do
  require (∀ conversationID ∈ attachment.conversationID,
    s.isConversationMember conversationID attachment.ownerAccountID) StoreError.notMember
  require (∀ a ∈ s.attachments, a.storageKey ≠ attachment.storageKey) StoreError.uniqueConstraint
  match s.attachments.insert? { attachment with createdAt := now } with
  | some attachments => pure ((), { s with attachments })
  | none => .error .uniqueConstraint

/-- Delete the caller's own attachment, also while a message links it, and queue its blob. The link
goes with it. -/
def deleteAttachment (s : Store) (id : AttachmentID) (accountID : AccountID) :
    Except StoreError (AttachmentEnvelope × Store) := do
  let some attachment := s.attachments.find? id | .error .notFound
  require (attachment.ownerAccountID = accountID ∨ ∃ conversationID ∈ attachment.conversationID,
    s.isConversationMember conversationID accountID) StoreError.notFound
  require (attachment.ownerAccountID = accountID) StoreError.forbidden
  pure (attachment,
    { s with
      messageAttachments := s.messageAttachments.delete (·.attachmentID = id)
      attachments := s.attachments.delete (·.id = id) }.enqueueBlobDeletion attachment.storageKey)

end Store
end Veritra.Storage
