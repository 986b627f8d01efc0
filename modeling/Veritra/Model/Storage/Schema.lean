import Veritra.Relational.Log

/-! # The tables of the message store

The state of the server is the content of its database plus one in-memory cursor. Every table is a
keyed table over the columns the modelled operations read or write, and the sync events are a log
with generated ids. The store runs over one connection with foreign keys enforced, so the content
only changes by whole transactions.

Ids and idempotency keys are texts compared byte for byte. A time is a number of nanoseconds; the
database holds it as fixed-width text, whose order is the order of the numbers.
-/

namespace Veritra.Storage

open Relational

abbrev AccountID := String
abbrev DeviceID := String
abbrev ConversationID := String
abbrev CommunityID := String
abbrev ChannelID := String
abbrev MessageID := String
abbrev MLSMessageID := String
abbrev AttachmentID := String
abbrev Bytes := List UInt8
abbrev Time := ℕ
abbrev EventID := ℕ

/-- One second in the unit of `Time`. -/
def second : Time := 1000000000

/-- SQLite's clock, which stops at the millisecond: `sqlNowText`. -/
def sqlNow (now : Time) : Time := now / 1000000 * 1000000

/-- Roles of an instance account and of a conversation or community member. -/
inductive Role
  | owner | admin | moderator | member
  deriving DecidableEq, Repr

/-- The `status` column of an account. -/
inductive AccountStatus
  | active | suspended | deleted
  deriving DecidableEq, Repr

structure Account where
  id : AccountID
  role : Role
  status : AccountStatus
  deletedAt : Option Time
  deriving DecidableEq, Repr

structure Device where
  id : DeviceID
  accountID : AccountID
  createdAt : Time
  revokedAt : Option Time
  deriving DecidableEq, Repr

structure AccountBlock where
  blockerAccountID : AccountID
  blockedAccountID : AccountID
  deriving DecidableEq, Repr

def AccountBlock.key (block : AccountBlock) : AccountID × AccountID :=
  (block.blockerAccountID, block.blockedAccountID)

inductive ConversationKind
  | dm | group | communityChannel
  deriving DecidableEq, Repr

inductive ChannelKind
  | «private» | announcement
  deriving DecidableEq, Repr

/-- Who may post: `posting_policy`. -/
inductive PostingPolicy
  | everyone | admins
  deriving DecidableEq, Repr

structure Community where
  id : CommunityID
  createdBy : AccountID
  deriving DecidableEq, Repr

structure Channel where
  id : ChannelID
  communityID : CommunityID
  kind : ChannelKind
  deriving DecidableEq, Repr

structure Conversation where
  id : ConversationID
  kind : ConversationKind
  communityID : Option CommunityID
  channelID : Option ChannelID
  createdBy : AccountID
  retentionSeconds : Option ℕ
  postingPolicy : PostingPolicy
  createdAt : Time
  deriving DecidableEq, Repr

/-- A membership row names a community or a conversation, never both. -/
inductive Scope
  | community (id : CommunityID)
  | conversation (id : ConversationID)
  deriving DecidableEq, Repr

structure Membership where
  accountID : AccountID
  scope : Scope
  role : Role
  createdAt : Time
  deriving DecidableEq, Repr

/-- `UNIQUE(account_id, community_id)` and `UNIQUE(account_id, conversation_id)`. -/
def Membership.key (membership : Membership) : AccountID × Scope :=
  (membership.accountID, membership.scope)

/-- The one direct conversation of two accounts, keyed by the ordered pair. -/
structure DMPair where
  accountLow : AccountID
  accountHigh : AccountID
  conversationID : ConversationID
  deriving DecidableEq, Repr

def DMPair.key (pair : DMPair) : AccountID × AccountID := (pair.accountLow, pair.accountHigh)

/-- Crypto metadata as stored, with the integer `mls_epoch` member when it has one. -/
structure CryptoMetadata where
  raw : String
  mlsEpoch : Option ℤ
  deriving DecidableEq, Repr

/-- One element of an attachment list: a text, an object with an optional text `id`, or neither. -/
inductive AttachmentRef
  | text (id : String)
  | object (id : Option String)
  | other
  deriving DecidableEq, Repr

/-- Attachment references as stored, with the elements when the text is a JSON array; `null` is an
empty one. -/
structure AttachmentRefs where
  raw : String
  refs : Option (List AttachmentRef)
  deriving DecidableEq, Repr

structure MessageEnvelope where
  id : MessageID
  conversationID : ConversationID
  senderAccountID : AccountID
  senderDeviceID : DeviceID
  idempotencyKey : String
  ciphertext : Bytes
  cryptoProtocol : String
  cryptoMetadata : CryptoMetadata
  attachmentRefs : AttachmentRefs
  replyToID : Option MessageID
  threadRootID : Option MessageID
  createdAt : Time
  editedAt : Option Time
  deletedAt : Option Time
  expiresAt : Option Time
  deriving DecidableEq, Repr

/-- `UNIQUE(sender_device_id, idempotency_key)`. -/
def MessageEnvelope.sendKey (envelope : MessageEnvelope) : DeviceID × String :=
  (envelope.senderDeviceID, envelope.idempotencyKey)

structure AttachmentEnvelope where
  id : AttachmentID
  ownerAccountID : AccountID
  conversationID : Option ConversationID
  storageKey : String
  sizeBytes : ℤ
  createdAt : Time
  deriving DecidableEq, Repr

/-- A message's link to an attachment; an attachment links to one message at most. -/
structure MessageAttachment where
  messageID : MessageID
  attachmentID : AttachmentID
  deriving DecidableEq, Repr

/-- The `event_type` column. -/
inductive EventType
  | messageEnvelopeCreated | messageEnvelopeEdited | messageEnvelopeDeleted
  | mlsMessageCreated | mlsRevocationPending | mlsRevocationCompleted
  | membershipUpdated | membershipLeft | membershipRemoved
  | deviceRevoked | deviceUpdated
  | reactionCreated | reactionDeleted | readReceiptUpdated
  | callState | callSignaling
  | retentionUpdated | conversationPostingPolicyUpdated
  | accountRecoveryPending | accountRecoveryCancelled | accountRecovered
  | accountRecoveryKeySet | accountPasswordLeakSuspected
  deriving DecidableEq, Repr

namespace EventType

/-- `LIKE 'message.envelope.%'`, and also `LIKE 'message.%'`: no other type starts so. -/
def isMessageEnvelope : EventType → Bool
  | messageEnvelopeCreated | messageEnvelopeEdited | messageEnvelopeDeleted => true
  | _ => false

/-- `LIKE 'reaction.%'`. -/
def isReaction : EventType → Bool
  | reactionCreated | reactionDeleted => true
  | _ => false

/-- `LIKE 'call.%'`. -/
def isCall : EventType → Bool
  | callState | callSignaling => true
  | _ => false

/-- The encrypted events, which follow the device's MLS join cursor. -/
def rosterFiltered (type : EventType) : Bool :=
  type = mlsMessageCreated || type.isMessageEnvelope || type.isCall

/-- `messageVersionEventTypes`: the envelope copies a delete supersedes. -/
def isMessageVersion : EventType → Bool
  | messageEnvelopeCreated | messageEnvelopeEdited => true
  | _ => false

end EventType

/-- The members of a payload that the store reads back, for each shape it writes. -/
inductive Payload
  /-- `messageSyncEventPayload`: the envelope as it was at that event. -/
  | message (messageID : MessageID) (conversationID : ConversationID) (envelope : MessageEnvelope)
  /-- What `redactMessageSyncEventsSQL` leaves of a message payload. -/
  | redacted (messageID : Option MessageID) (conversationID : Option ConversationID)
      (senderAccountID : Option AccountID)
  | mlsMessage (mlsMessageID : MLSMessageID) (welcome : Bool)
  | mlsRevocation (deviceID : DeviceID) (accountID : Option AccountID)
  /-- Reactions, receipts and memberships name the account they are about. -/
  | ofAccount (accountID : AccountID)
  /-- A call names the account that created it. -/
  | call (createdBy : AccountID)
  | device (deviceID : DeviceID)
  | other
  deriving DecidableEq, Repr

namespace Payload

/-- `json_extract(payload_json, '$.message_id')`. -/
def messageID : Payload → Option MessageID
  | message messageID _ _ => some messageID
  | redacted messageID _ _ => messageID
  | _ => none

/-- `json_extract(payload_json, '$.envelope')`. -/
def envelope : Payload → Option MessageEnvelope
  | message _ _ envelope => some envelope
  | _ => none

/-- `json_extract(payload_json, '$.conversation_id')`. -/
def conversationID : Payload → Option ConversationID
  | message _ conversationID _ => some conversationID
  | redacted _ conversationID _ => conversationID
  | _ => none

/-- The sender in the envelope copy, or else the one a redaction kept. -/
def senderAccountID : Payload → Option AccountID
  | message _ _ envelope => some envelope.senderAccountID
  | redacted _ _ senderAccountID => senderAccountID
  | _ => none

/-- `json_extract(payload_json, '$.account_id')`. -/
def accountID : Payload → Option AccountID
  | ofAccount accountID => some accountID
  | mlsRevocation _ accountID => accountID
  | _ => none

/-- `json_extract(payload_json, '$.created_by')`. -/
def createdBy : Payload → Option AccountID
  | call createdBy => some createdBy
  | _ => none

end Payload

structure SyncEvent where
  id : EventID
  eventType : EventType
  accountID : Option AccountID
  deviceID : Option DeviceID
  conversationID : Option ConversationID
  payload : Payload
  createdAt : Time
  deriving DecidableEq, Repr

inductive MLSKind
  | welcome | commit
  deriving DecidableEq, Repr

/-- A row of `conversation_mls_messages`; its sync event is written in the same transaction. -/
structure MLSMessage where
  id : MLSMessageID
  conversationID : ConversationID
  senderAccountID : AccountID
  senderDeviceID : DeviceID
  recipientDeviceID : Option DeviceID
  revocationDeviceID : Option DeviceID
  kind : MLSKind
  payload : Bytes
  idempotencyKey : String
  syncEventID : EventID
  createdAt : Time
  deriving DecidableEq, Repr

/-- `UNIQUE(sender_device_id, idempotency_key)`. -/
def MLSMessage.sendKey (message : MLSMessage) : DeviceID × String :=
  (message.senderDeviceID, message.idempotencyKey)

/-- A group the server follows, with its current epoch. -/
structure MLSGroup where
  conversationID : ConversationID
  epoch : ℕ
  updatedAt : Time
  deriving DecidableEq, Repr

/-- A roster row: the device is active while `removedAfterEventID` is empty. -/
structure MLSDevice where
  conversationID : ConversationID
  deviceID : DeviceID
  accountID : AccountID
  joinedAfterEventID : EventID
  joinedEpoch : ℕ
  removedAfterEventID : Option EventID
  lastSelfUpdateAt : Option Time
  deriving DecidableEq, Repr

def MLSDevice.key (row : MLSDevice) : ConversationID × DeviceID := (row.conversationID, row.deviceID)

inductive RevocationState
  | pending | commitSubmitted | completed
  deriving DecidableEq, Repr

structure MLSRevocation where
  conversationID : ConversationID
  revokedDeviceID : DeviceID
  revokedAccountID : AccountID
  coordinatorDeviceID : DeviceID
  state : RevocationState
  commitMessageID : Option MLSMessageID
  requestedAt : Time
  completedAt : Option Time
  deriving DecidableEq, Repr

def MLSRevocation.key (revocation : MLSRevocation) : ConversationID × DeviceID :=
  (revocation.conversationID, revocation.revokedDeviceID)

/-- A device whose confirmation a revocation waits for. -/
structure RequiredDevice where
  conversationID : ConversationID
  revokedDeviceID : DeviceID
  deviceID : DeviceID
  confirmedAt : Option Time
  deriving DecidableEq, Repr

def RequiredDevice.key (row : RequiredDevice) : (ConversationID × DeviceID) × DeviceID :=
  ((row.conversationID, row.revokedDeviceID), row.deviceID)

def RequiredDevice.revocation (row : RequiredDevice) : ConversationID × DeviceID :=
  (row.conversationID, row.revokedDeviceID)

structure MLSTables where
  groups : Table MLSGroup MLSGroup.conversationID
  devices : Table MLSDevice MLSDevice.key
  messages : IndexedTable MLSMessage MLSMessage.id MLSMessage.sendKey
  revocations : Table MLSRevocation MLSRevocation.key
  requiredDevices : Table RequiredDevice RequiredDevice.key

/-- The single row of `sync_prune_state`. -/
structure PruneState where
  legacyThrough : EventID
  prunedThrough : EventID
  deriving DecidableEq, Repr

/-- The highest event id pruned for an account, for one device or, with `""`, for every device. -/
structure AccountMark where
  accountID : AccountID
  deviceID : DeviceID
  prunedThrough : EventID
  deriving DecidableEq, Repr

def AccountMark.key (mark : AccountMark) : AccountID × DeviceID := (mark.accountID, mark.deviceID)

structure ConversationMark where
  conversationID : ConversationID
  rosterFiltered : Bool
  prunedThrough : EventID
  deriving DecidableEq, Repr

def ConversationMark.key (mark : ConversationMark) : ConversationID × Bool :=
  (mark.conversationID, mark.rosterFiltered)

structure PruneMarks where
  state : Option PruneState
  accounts : Table AccountMark AccountMark.key
  conversations : Table ConversationMark ConversationMark.key

/-- The database, and the in-memory cursor of the redaction backfill. -/
structure Store where
  accounts : Table Account Account.id
  devices : Table Device Device.id
  blocks : Table AccountBlock AccountBlock.key
  communities : Table Community Community.id
  channels : Table Channel Channel.id
  conversations : Table Conversation Conversation.id
  memberships : Table Membership Membership.key
  dmPairs : Table DMPair DMPair.key
  messages : IndexedTable MessageEnvelope MessageEnvelope.id MessageEnvelope.sendKey
  attachments : Table AttachmentEnvelope AttachmentEnvelope.id
  messageAttachments : Table MessageAttachment MessageAttachment.attachmentID
  blobDeletions : List String
  mls : MLSTables
  events : Log SyncEvent SyncEvent.id
  pruneMarks : PruneMarks
  redactCursor : EventID

/-- The database right after the migrations, before any account exists. -/
def Store.init : Store where
  accounts := .empty
  devices := .empty
  blocks := .empty
  communities := .empty
  channels := .empty
  conversations := .empty
  memberships := .empty
  dmPairs := .empty
  messages := .empty
  attachments := .empty
  messageAttachments := .empty
  blobDeletions := []
  mls := ⟨.empty, .empty, .empty, .empty, .empty⟩
  events := .empty
  pruneMarks := ⟨some ⟨0, 0⟩, .empty, .empty⟩
  redactCursor := 0

/-- Why an operation is refused; the transaction is rolled back. -/
inductive StoreError
  | forbidden | postingRestricted | notFound | notMember | invalidInput | lastOwner
  | idempotencyConflict | syncCursorExpired
  /-- The merge emitted an event out of id order. -/
  | syncMergeOrder
  | mlsEpochConflict | mlsGroupLegacy | mlsNotInGroup | mlsBundleRequired | mlsChangePending
  | mlsSelfUpdateLimit (retryAfter : Time)
  | conversationLimit | conversationMemberLimit
  | unauthorized | enrollmentInvalid | recoveryCancelled
  | keyPackageUnavailable | keyPackageClaimLimit | storageQuota
  | callVersion | recoveryBusy | recoveryRange
  | deviceLimit | deviceLinkLimit | deviceLinkInvalid | deviceLinkNotReady
  | deviceLinkVerificationFailed | deviceLinkSessionUnavailable
  | alreadySetup
  /-- A query for a row that must be there found none. -/
  | noRows
  /-- A `UNIQUE` or primary-key violation. -/
  | uniqueConstraint
  /-- A `CHECK` violation. -/
  | checkConstraint
  /-- A row that another table still references may not go. -/
  | foreignKeyConstraint
  deriving DecidableEq, Repr

end Veritra.Storage
