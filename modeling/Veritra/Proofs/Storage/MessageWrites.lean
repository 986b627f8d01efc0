import Veritra.Proofs.Storage.Quiet

/-! # What the message operations write

Sending, editing, deleting and expiring messages writes the envelopes, the attachments and the
event log. Envelope copies in the log are redacted and message events are appended; no other event
changes, and neither do devices, members, the MLS tables or the prune marks.
-/

namespace Veritra.Storage

open Relational Machine

/-- The later form of an event: unchanged, or a message event that lost its envelope. -/
def SyncEvent.Rewritten (e e' : SyncEvent) : Prop :=
  e' = e ∨ (e.eventType.isMessageEnvelope ∧ e' = e.redact)

namespace SyncEvent.Rewritten

variable {e e' e'' : SyncEvent}

theorem refl (e : SyncEvent) : e.Rewritten e := .inl rfl

theorem redact_redact (e : SyncEvent) : e.redact.redact = e.redact := by
  have twice : (e.payload.conversationID.or e.conversationID).or e.conversationID =
      e.payload.conversationID.or e.conversationID := by
    cases e.payload.conversationID <;> cases e.conversationID <;> rfl
  simp only [redact]
  congr 2

theorem trans (first : e.Rewritten e') (second : e'.Rewritten e'') : e.Rewritten e'' := by
  rcases first with rfl | ⟨type, rfl⟩
  · exact second
  · rcases second with rfl | ⟨-, rfl⟩
    · exact .inr ⟨type, rfl⟩
    · exact .inr ⟨type, redact_redact e⟩

section Fields

variable (rewritten : e.Rewritten e')
include rewritten

theorem id : e'.id = e.id := by rcases rewritten with rfl | ⟨-, rfl⟩ <;> rfl
theorem eventType : e'.eventType = e.eventType := by rcases rewritten with rfl | ⟨-, rfl⟩ <;> rfl
theorem createdAt : e'.createdAt = e.createdAt := by rcases rewritten with rfl | ⟨-, rfl⟩ <;> rfl

end Fields
end SyncEvent.Rewritten

theorem EventType.isMessageEnvelope_of_isMessageVersion (type : EventType)
    (version : type.isMessageVersion) : type.isMessageEnvelope := by
  revert version
  cases type <;> decide

/-- The row that a new message gets. -/
def MessageEnvelope.stored (envelope : MessageEnvelope) : MessageEnvelope :=
  { envelope with
    replyToID := nullableString envelope.replyToID
    threadRootID := nullableString envelope.threadRootID
    editedAt := none
    deletedAt := none }

/-- Envelopes, attachments and message events were written. -/
structure MessageWrites (s s' : Store) : Prop where
  mls : s'.mls = s.mls
  devices : s'.devices = s.devices
  memberships : s'.memberships = s.memberships
  pruneMarks : s'.pruneMarks = s.pruneMarks
  events : s.events.Revises SyncEvent.Rewritten (·.eventType.isMessageEnvelope) s'.events

namespace MessageWrites

variable {s s' s'' : Store}

theorem trans (first : MessageWrites s s') (second : MessageWrites s' s'') : MessageWrites s s'' where
  mls := second.mls.trans first.mls
  devices := second.devices.trans first.devices
  memberships := second.memberships.trans first.memberships
  pruneMarks := second.pruneMarks.trans first.pruneMarks
  events := by
    refine Log.Revises.trans (fun _ _ _ => SyncEvent.Rewritten.trans) ?_ ?_ first.events second.events
    · intro e e' type rewritten
      rwa [rewritten.eventType]
    · intro e e' rewritten
      exact rewritten.id

/-- Only tables outside the log were written. -/
theorem of_eq (mls : s'.mls = s.mls) (devices : s'.devices = s.devices)
    (memberships : s'.memberships = s.memberships) (pruneMarks : s'.pruneMarks = s.pruneMarks)
    (events : s'.events = s.events) : MessageWrites s s' :=
  ⟨mls, devices, memberships, pruneMarks, events ▸ .refl SyncEvent.Rewritten.refl _⟩

theorem refl (s : Store) : MessageWrites s s := of_eq rfl rfl rfl rfl rfl

theorem cursor (s : Store) (redactCursor : EventID) : MessageWrites s { s with redactCursor } :=
  of_eq rfl rfl rfl rfl rfl

theorem attachments (s : Store) (attachments : Table AttachmentEnvelope AttachmentEnvelope.id) :
    MessageWrites s { s with attachments } :=
  of_eq rfl rfl rfl rfl rfl

end MessageWrites

namespace Store

variable {eventType : Option EventType} {envelope request : MessageEnvelope} {messageID newID : MessageID}
  {attachmentIDs : List AttachmentID} {withSyncEvent : Bool} {saved : SavedMessage} {middle : Store}
  {accountID : AccountID} {ciphertext markerCiphertext : Bytes} {cryptoProtocol : String}
  {cryptoMetadata : CryptoMetadata} {answer : MessageEnvelope × EventID} {s s' : Store} {now : Time}

theorem redactEvents_writes (s : Store) (p : SyncEvent → Prop) [DecidablePred p]
    (messages : ∀ e, p e → e.eventType.isMessageEnvelope) : MessageWrites s (s.redactEvents p) where
  mls := rfl
  devices := rfl
  memberships := rfl
  pruneMarks := rfl
  events := by
    simp only [redactEvents]
    refine Log.Revises.update SyncEvent.Rewritten.refl s.events ?_
    intro e hit
    exact .inr ⟨messages e hit, rfl⟩

theorem deleteMessages_writes (s : Store) (p : MessageEnvelope → Prop) [DecidablePred p] :
    MessageWrites s (s.deleteMessages p) :=
  .of_eq rfl rfl rfl rfl rfl

theorem insertMessageEvent_writes (s : Store) (messages : ∀ type ∈ eventType, type.isMessageEnvelope) :
    MessageWrites s (s.insertMessageEvent eventType envelope now).2 := by
  cases eventType with
  | none => exact .refl s
  | some type =>
    refine ⟨rfl, rfl, rfl, rfl, .of_grows SyncEvent.Rewritten.refl ?_⟩
    simp only [insertMessageEvent, insertSyncEvent]
    refine Log.Grows.append s.events ?_
    exact messages type rfl

section

variable (s) (storageKeys : List String)

theorem enqueueEach_frame :
    ∃ blobDeletions, storageKeys.foldl enqueueBlobDeletion s = { s with blobDeletions } := by
  induction storageKeys generalizing s with
  | nil => exact ⟨_, rfl⟩
  | cons key rest ih =>
    obtain ⟨_, frame⟩ := ih (s.enqueueBlobDeletion key)
    rw [List.foldl_cons, frame]
    unfold enqueueBlobDeletion
    split <;> exact ⟨_, rfl⟩

theorem enqueueEach_writes : MessageWrites s (storageKeys.foldl enqueueBlobDeletion s) := by
  obtain ⟨_, frame⟩ := s.enqueueEach_frame storageKeys
  rw [frame]
  exact .of_eq rfl rfl rfl rfl rfl

theorem mem_enqueueEach (key : String) : key ∈ (storageKeys.foldl enqueueBlobDeletion s).blobDeletions ↔
      key ∈ s.blobDeletions ∨ key ∈ storageKeys := by
  induction storageKeys generalizing s with
  | nil => simp
  | cons first rest ih =>
    rw [List.foldl_cons, ih, List.mem_cons, ← or_assoc]
    unfold enqueueBlobDeletion
    split
    · next known => exact or_congr_left ⟨.inl, fun | .inl old => old | .inr same => same ▸ known⟩
    · simp

end

theorem deleteAttachment_ok {id : AttachmentID} {deleted : AttachmentEnvelope}
    (ok : s.deleteAttachment id accountID = .ok (deleted, s')) :
    deleted ∈ s.attachments ∧ deleted.id = id ∧ ∃ blobDeletions, s' = { s with
        messageAttachments := s.messageAttachments.delete (·.attachmentID = id)
        attachments := s.attachments.delete (·.id = id)
        blobDeletions } ∧
      ∀ key, key ∈ blobDeletions ↔ key ∈ s.blobDeletions ∨ key = deleted.storageKey := by
  unfold deleteAttachment at ok
  split at ok
  · next attachment found =>
    have ok := of_require ok
    have ok := of_require ok
    cases ok
    obtain ⟨stored, same⟩ := Table.find?_eq_some.mp found
    have queue := mem_enqueueEach { s with
      messageAttachments := s.messageAttachments.delete (·.attachmentID = id)
      attachments := s.attachments.delete (·.id = id) } [deleted.storageKey]
    obtain ⟨blobDeletions, frame⟩ := enqueueEach_frame { s with
      messageAttachments := s.messageAttachments.delete (·.attachmentID = id)
      attachments := s.attachments.delete (·.id = id) } [deleted.storageKey]
    rw [frame] at queue
    exact ⟨stored, same, blobDeletions, frame, fun key => by simpa using queue key⟩
  · cases ok

theorem deleteExpiredMessageByIdempotency_writes (s : Store) (deviceID : DeviceID)
    (idempotencyKey : String) (now : Time) :
    MessageWrites s (s.deleteExpiredMessageByIdempotency deviceID idempotencyKey now) := by
  unfold deleteExpiredMessageByIdempotency
  split
  · exact .refl s
  · split
    · exact .refl s
    · exact (s.redactEvents_writes _ fun e hit => hit.2.1).trans (deleteMessages_writes _ _)

private theorem linkAttachments_ok (linked : attachmentIDs.foldlM (fun s attachmentID =>
      match s.messageAttachments.insert? ⟨messageID, attachmentID⟩ with
      | some messageAttachments => Except.ok { s with messageAttachments }
      | none => .error StoreError.invalidInput) s = .ok s') :
    ∃ messageAttachments, s' = { s with messageAttachments } ∧ ∀ link, link ∈ messageAttachments ↔
      link ∈ s.messageAttachments ∨ ∃ id ∈ attachmentIDs, link = ⟨messageID, id⟩ := by
  induction attachmentIDs generalizing s with
  | nil =>
    cases linked
    exact ⟨_, rfl, by simp⟩
  | cons attachmentID rest ih =>
    rw [List.foldlM_cons] at linked
    obtain ⟨middle, first, linked⟩ := bind_eq_ok.mp linked
    split at first
    · next messageAttachments inserted =>
      cases first
      obtain ⟨_, rfl, links⟩ := ih linked
      refine ⟨_, rfl, fun link => ?_⟩
      rw [links, Table.mem_of_insert? inserted, or_assoc]
      simp
    · cases first

/-- A new message is stored with the links of its attachments. -/
theorem insertMessage_ok (inserted : s.insertMessage envelope attachmentIDs = .ok s') :
    ∃ messages messageAttachments, s.messages.insert? envelope.stored = some messages ∧
      s' = { s with messages, messageAttachments } ∧ ∀ link, link ∈ messageAttachments ↔
        link ∈ s.messageAttachments ∨ ∃ id ∈ attachmentIDs, link = ⟨envelope.id, id⟩ := by
  have inserted := of_require inserted
  have inserted := of_require inserted
  split at inserted
  · cases inserted
  · next messages stored =>
    obtain ⟨messageAttachments, rfl, links⟩ := linkAttachments_ok inserted
    exact ⟨messages, messageAttachments, stored, rfl, links⟩

/-- A message that is not a retry: its row is inserted, and its event may be appended. -/
structure MessageSent (s : Store) (now : Time) (newID : MessageID) (withSyncEvent : Bool)
    (request sent : MessageEnvelope) (middle s' : Store) : Prop where
  id : sent.id = if request.id = "" then newID else request.id
  inserted : s.messages.insert? sent.stored = some middle.messages
  events : middle.events = s.events
  writes : MessageWrites s middle
  after : s' = (middle.insertMessageEvent
    (if withSyncEvent then some .messageEnvelopeCreated else none) sent now).2

section

variable (ok : s.saveNewMessage now newID withSyncEvent envelope attachmentIDs = .ok (saved, s'))

include ok

/-- What a new message is stored as: its id, its time and its expiry are the server's. -/
theorem saveNewMessage_inserts : ∃ expiresAt sent middle, sent = { envelope with
        id := if envelope.id = "" then newID else envelope.id, createdAt := now, expiresAt } ∧
      saved.envelope = sent ∧ s.validReference envelope.conversationID now envelope.replyToID ∧
      s.validReference envelope.conversationID now envelope.threadRootID ∧
      s.insertMessage sent attachmentIDs = .ok middle ∧
      s' = (middle.insertMessageEvent
        (if withSyncEvent then some .messageEnvelopeCreated else none) sent now).2 := by
  unfold saveNewMessage at ok
  split at ok
  · split at ok
    · have ok := of_require ok
      obtain ⟨⟨reply, thread⟩, ok⟩ := require_ok.mp ok
      obtain ⟨middle, inserting, ok⟩ := bind_eq_ok.mp ok
      cases ok
      refine ⟨_, _, middle, rfl, ?_, reply, thread, inserting, rfl⟩
      rfl
    · cases ok
  · cases ok

theorem saveNewMessage_ok :
    ∃ sent middle, MessageSent s now newID withSyncEvent envelope sent middle s' := by
  obtain ⟨_, sent, middle, stored, -, -, -, inserting, after⟩ := saveNewMessage_inserts ok
  obtain ⟨messages, messageAttachments, inserted, rfl, -⟩ := insertMessage_ok inserting
  refine ⟨sent, { s with messages, messageAttachments }, ?_, inserted, rfl, .of_eq rfl rfl rfl rfl rfl, after⟩
  rw [stored]

end

/-- The attachments a request lists are the sender's, in the conversation it sends to. -/
def OwnsAttachments (s : Store) (request : MessageEnvelope) (attachmentIDs : List AttachmentID) : Prop :=
  ∀ id ∈ attachmentIDs, ∃ a ∈ s.attachments, a.id = id ∧
    a.ownerAccountID = request.senderAccountID ∧ a.conversationID = some request.conversationID

/-- A committed save checks its attachments and removes an expired message under its key. It is then
a retry of the message that is stored under the key, or sends a new one. -/
theorem saveMessageEnvelope_eq_ok :
    s.saveMessageEnvelope now newID withSyncEvent request = .ok (saved, s') ↔
    ∃ attachmentIDs, parseAttachmentIDs request.filled.attachmentRefs = .ok attachmentIDs ∧
      s.OwnsAttachments request attachmentIDs ∧
      ∃ cleared, cleared = s.deleteExpiredMessageByIdempotency request.senderDeviceID
          request.idempotencyKey now ∧
        ((∃ existing ∈ cleared.messages.findIndex? request.sendKey,
            sameIdempotentMessage existing request.filled ∧ saved = ⟨existing, true, 0, []⟩ ∧ s' = cleared) ∨
          (cleared.messages.findIndex? request.sendKey = none ∧
            cleared.saveNewMessage now newID withSyncEvent request.filled attachmentIDs = .ok (saved, s'))) := by
  refine bind_eq_ok.trans (exists_congr fun attachmentIDs => and_congr_right fun _ => ?_)
  refine require_ok.trans (and_congr_right fun _ => ?_)
  rw [exists_eq_left]
  -- The defaults of the two texts are not what the outcome depends on.
  unfold MessageEnvelope.filled MessageEnvelope.sendKey
  generalize (if request.cryptoMetadata.raw = "" then emptyMetadata
    else request.cryptoMetadata) = metadata
  generalize (if request.attachmentRefs.raw = "" then emptyAttachmentRefs
    else request.attachmentRefs) = refs
  dsimp only
  split
  · next existing found =>
    rw [found, require_ok, pure_eq_ok]
    simp [eq_comm]
  · next missing =>
    rw [missing]
    simp

theorem saveMessageEnvelope_ok
    (ok : s.saveMessageEnvelope now newID withSyncEvent request = .ok (saved, s')) :
    ∃ cleared, cleared = s.deleteExpiredMessageByIdempotency request.senderDeviceID
        request.idempotencyKey now ∧
      (s' = cleared ∨ ∃ asked sent middle, asked.id = request.id ∧
        asked.conversationID = request.conversationID ∧
        MessageSent cleared now newID withSyncEvent asked sent middle s') := by
  obtain ⟨_, -, -, cleared, clearing, ⟨_, -, -, -, same⟩ | ⟨-, sending⟩⟩ := saveMessageEnvelope_eq_ok.mp ok
  · exact ⟨cleared, clearing, .inl same⟩
  · obtain ⟨sent, middle, outcome⟩ := saveNewMessage_ok sending
    exact ⟨cleared, clearing, .inr ⟨request.filled, sent, middle, rfl, rfl, outcome⟩⟩

private theorem optional_isMessage {eventType : EventType} (type : eventType.isMessageEnvelope) :
    ∀ chosen ∈ (if withSyncEvent then some eventType else none), chosen.isMessageEnvelope := by
  intro chosen mem
  split at mem
  · cases mem
    exact type
  · cases mem

theorem MessageSent.all_writes {sent : MessageEnvelope}
    (outcome : MessageSent s now newID withSyncEvent request sent middle s') :
    MessageWrites s s' := by
  rw [outcome.after]
  exact outcome.writes.trans (middle.insertMessageEvent_writes (optional_isMessage rfl))

section

variable (ok : s.saveMessageEnvelope now newID withSyncEvent request = .ok (saved, s'))

include ok

theorem saveMessageEnvelope_writes : MessageWrites s s' := by
  obtain ⟨cleared, rfl, outcome⟩ := saveMessageEnvelope_ok ok
  have clearing := s.deleteExpiredMessageByIdempotency_writes request.senderDeviceID
    request.idempotencyKey now
  rcases outcome with rfl | ⟨_, _, _, -, -, outcome⟩
  · exact clearing
  · exact clearing.trans outcome.all_writes

/-- Sending writes messages, their links and events only. -/
theorem saveMessageEnvelope_frame :
    ∃ messages messageAttachments events, s' = { s with messages, messageAttachments, events } := by
  have clearing : ∃ messages messageAttachments events,
      s.deleteExpiredMessageByIdempotency request.senderDeviceID request.idempotencyKey now =
        { s with messages, messageAttachments, events } := by
    unfold deleteExpiredMessageByIdempotency
    split
    · exact ⟨_, _, _, rfl⟩
    · split <;> exact ⟨_, _, _, rfl⟩
  obtain ⟨_, -, -, cleared, rfl, ⟨_, -, -, -, rfl⟩ | ⟨-, sending⟩⟩ := saveMessageEnvelope_eq_ok.mp ok
  · exact clearing
  · obtain ⟨_, _, _, frame⟩ := clearing
    obtain ⟨_, _, _, -, -, -, -, inserting, rfl⟩ := saveNewMessage_inserts sending
    obtain ⟨_, _, -, rfl, -⟩ := insertMessage_ok inserting
    rw [frame]
    split <;> exact ⟨_, _, _, rfl⟩

end

/-- One row was replaced by a new version of its message. -/
structure MessageMutated (s : Store) (messageID : MessageID) (accountID : AccountID) (now : Time)
    (old new : MessageEnvelope) (middle : Store) : Prop where
  member : old ∈ s.messages
  may : s.mayMutate messageID accountID now old
  frame : ∃ messages, middle = { s with messages }
  rows : ∀ m, m ∈ middle.messages ↔ (m ∈ s.messages ∧ m.id ≠ messageID) ∨ m = new

theorem mutateMessage_ok {change : MessageEnvelope → MessageEnvelope}
    {keeps : ∀ m, (change m).id = m.id} {keepsKey : ∀ m, (change m).sendKey = m.sendKey}
    (ok : s.mutateMessage messageID accountID now change keeps keepsKey = .ok (envelope, s')) :
    ∃ old, envelope = change old ∧ MessageMutated s messageID accountID now old envelope s' := by
  unfold mutateMessage at ok
  split at ok
  · cases ok
  · next old found =>
    split at ok
    · next may =>
      cases ok
      have mem := (Table.find?_eq_some.mp found).1
      refine ⟨old, rfl, mem, may, ⟨_, rfl⟩, ?_⟩
      intro m
      rw [IndexedTable.mem_update]
      constructor
      · rintro (⟨kept, miss⟩ | ⟨other, kept, hit, rfl⟩)
        · refine .inl ⟨kept, fun same => miss ?_⟩
          rwa [Table.eq_of_key kept mem (same.trans may.1.symm)]
        · rw [Table.eq_of_key kept mem (hit.1.trans may.1.symm)]
          exact .inr rfl
      · rintro (⟨kept, different⟩ | rfl)
        · exact .inl ⟨kept, fun hit => different hit.1⟩
        · exact .inr ⟨old, mem, may, rfl⟩
    · split at ok <;> cases ok

theorem MessageMutated.writes {old new : MessageEnvelope}
    (mutated : MessageMutated s messageID accountID now old new middle) :
    MessageWrites s middle := by
  obtain ⟨_, rfl⟩ := mutated.frame
  exact .of_eq rfl rfl rfl rfl rfl

/-- A later version of a message, by its sender. -/
structure NewVersion (old new : MessageEnvelope) : Prop where
  id : new.id = old.id
  conversation : new.conversationID = old.conversationID
  createdAt : new.createdAt = old.createdAt
  expiresAt : new.expiresAt = old.expiresAt

theorem updateMessageEnvelope_ok
    (ok : s.updateMessageEnvelope now messageID accountID ciphertext cryptoProtocol
      cryptoMetadata eventType = .ok (answer, s')) :
    ∃ old new middle, MessageMutated s messageID accountID now old new middle ∧ NewVersion old new ∧
      new.deletedAt = old.deletedAt ∧ s' = (middle.insertMessageEvent eventType new now).2 := by
  have ok := of_require ok
  obtain ⟨⟨new, middle⟩, mutating, ok⟩ := bind_eq_ok.mp ok
  obtain ⟨old, rfl, mutated⟩ := mutateMessage_ok mutating
  refine ⟨old, _, middle, mutated, ⟨rfl, rfl, rfl, rfl⟩, rfl, ?_⟩
  exact (congrArg Prod.snd (pure_eq_ok.mp ok)).symm

/-- The copies that a deletion redacts: the versions of the message from its created event on. -/
def supersededBy (s : Store) (deleted : MessageEnvelope) (e : SyncEvent) : Prop :=
  e.conversationID = some deleted.conversationID ∧
    s.messageCreatedEventID deleted.conversationID deleted.id deleted.createdAt ≤ e.id ∧
    e.eventType.isMessageVersion ∧ e.payload.messageID = some deleted.id ∧ e.payload.envelope ≠ none
  deriving Decidable

theorem deleteMessageEnvelope_ok
    (ok : s.deleteMessageEnvelope now messageID accountID markerCiphertext cryptoProtocol
      cryptoMetadata eventType = .ok (answer, s')) :
    ∃ old new middle released, MessageMutated s messageID accountID now old new middle ∧
      NewVersion old new ∧ new.deletedAt = some now ∧
      released = middle.releaseMessageAttachments messageID ∧
      s' = ((released.redactEvents (released.supersededBy new)).insertMessageEvent eventType new now).2 := by
  have ok := of_require ok
  obtain ⟨⟨new, middle⟩, mutating, ok⟩ := bind_eq_ok.mp ok
  obtain ⟨old, rfl, mutated⟩ := mutateMessage_ok mutating
  refine ⟨old, _, middle, _, mutated, ⟨rfl, rfl, rfl, rfl⟩, rfl, rfl, ?_⟩
  have named : old.id = messageID := mutated.may.1
  subst named
  exact (congrArg Prod.snd (pure_eq_ok.mp ok)).symm

theorem updateMessageEnvelope_writes
    (ok : s.updateMessageEnvelope now messageID accountID ciphertext cryptoProtocol
      cryptoMetadata (if withSyncEvent then some .messageEnvelopeEdited else none) = .ok (answer, s')) :
    MessageWrites s s' := by
  obtain ⟨_, _, _, mutated, -, -, rfl⟩ := updateMessageEnvelope_ok ok
  exact mutated.writes.trans (insertMessageEvent_writes _ (optional_isMessage rfl))

theorem releaseMessageAttachments_writes (s : Store) (messageID : MessageID) :
    MessageWrites s (s.releaseMessageAttachments messageID) := by
  refine MessageWrites.trans ?_ (enqueueEach_writes _ _)
  exact .of_eq rfl rfl rfl rfl rfl

theorem deleteMessageEnvelope_writes
    (ok : s.deleteMessageEnvelope now messageID accountID markerCiphertext cryptoProtocol
      cryptoMetadata (if withSyncEvent then some .messageEnvelopeDeleted else none) = .ok (answer, s')) :
    MessageWrites s s' := by
  obtain ⟨_, new, middle, _, mutated, -, -, rfl, rfl⟩ := deleteMessageEnvelope_ok ok
  refine MessageWrites.trans ?_ (insertMessageEvent_writes _ (optional_isMessage rfl))
  refine MessageWrites.trans ?_ (redactEvents_writes _ _ ?_)
  · exact mutated.writes.trans (releaseMessageAttachments_writes middle messageID)
  · intro e hit
    exact e.eventType.isMessageEnvelope_of_isMessageVersion hit.2.2.1

theorem redactOrphanedMessageEvents_writes (s : Store) :
    MessageWrites s s.redactOrphanedMessageEvents.2 := by
  unfold redactOrphanedMessageEvents
  split
  · exact .refl s
  · exact s.redactEvents_writes _ fun e hit => hit.2.2.1

/-- The event copies one of the listed messages, in one of their conversations. -/
def copiesOneOf (expired : List MessageEnvelope) (e : SyncEvent) : Prop :=
  (∃ m ∈ expired, e.conversationID = some m.conversationID) ∧ ∃ m ∈ expired, e.copies m.id
  deriving Decidable

/-- A sweep redacts the copies of the expired messages, then a window of orphaned copies, and
deletes the expired rows. -/
theorem pruneExpiredContent_ok (s : Store) (now : Time) :
    ∃ start redacted : Store, start.messages = s.messages ∧ start.events = s.events ∧
      redacted = (start.redactEvents (copiesOneOf (s.expiredMessages now))).redactOrphanedMessageEvents.2 ∧
      (s.pruneExpiredContent now).2.messages =
        (redacted.deleteMessages fun m => ∃ x ∈ s.expiredMessages now, x.id = m.id).messages ∧
      (s.pruneExpiredContent now).2.events = redacted.events := by
  simp only [pruneExpiredContent]
  obtain ⟨_, frame⟩ := enqueueEach_frame _ _
  rw [frame]
  refine ⟨_, _, ?_, ?_, rfl, rfl, rfl⟩
  · rfl
  · rfl

theorem pruneExpiredContent_writes (s : Store) (now : Time) :
    MessageWrites s (s.pruneExpiredContent now).2 := by
  refine MessageWrites.trans ?_ (.cursor _ _)
  refine MessageWrites.trans ?_ (enqueueEach_writes _ _)
  refine MessageWrites.trans ?_ (.attachments _ _)
  refine MessageWrites.trans ?_ (deleteMessages_writes _ _)
  refine MessageWrites.trans ?_ (redactOrphanedMessageEvents_writes _)
  refine MessageWrites.trans ?_ (redactEvents_writes _ _ ?_)
  · exact .of_eq rfl rfl rfl rfl rfl
  · rintro e ⟨-, _, -, copies⟩
    exact copies.1

end Store
end Veritra.Storage
