import Veritra.Proofs.Storage.MessageRows

/-! # Attachments and the blob deletion queue

An attachment row owns one blob. The operations on messages, attachments and accounts delete rows,
and the blobs of deleted rows go to the deletion queue. An attachment that a message still links
stays as long as its message does, unless it or its owner's account is deleted.
-/

namespace Veritra.Storage

open Relational Machine

variable {s s' middle : Store} {now : Time} {accountID : AccountID} {limits : Limits}
  {messageID : MessageID} {call : Call} {given : Answer} {withSyncEvent : Bool} {request : MessageEnvelope}
  {saved : SavedMessage}

namespace MLSOnly

theorem sameBlobs (only : MLSOnly s s') : SameBlobs s s' := by
  obtain ⟨_, _, rfl⟩ := only
  exact ⟨rfl, rfl, rfl⟩

theorem devices (only : MLSOnly s s') : s'.devices = s.devices := by
  obtain ⟨_, _, rfl⟩ := only
  rfl

end MLSOnly

theorem SameBlobs.of_writes (writes : RevocationWrites s s') : SameBlobs s s' :=
  (MLSOnly.of_writes writes).sameBlobs

namespace Store

variable {base : Store} {input : MLSCommitBundleInput} {newID : ℕ → MLSMessageID}
  {result : MLSCommitBundleResult}

theorem revoked_sameBlobs (s : Store) (accountID : AccountID) (deviceID : DeviceID) (now : Time) :
    SameBlobs s (s.revoked accountID deviceID now) := by
  refine .trans ?_ (.of_writes (retireMLSDevice_writes _ accountID deviceID now))
  exact ⟨rfl, rfl, rfl⟩

theorem Recovered.sameBlobs (recovered : s.Recovered now accountID middle s') : SameBlobs s s' := by
  have revoked : SameBlobs s middle := by
    refine revokeEach_preserves ?_ recovered.revoked ⟨rfl, rfl, rfl⟩
    intro middle deviceID same
    exact same.trans (middle.revoked_sameBlobs accountID deviceID now)
  exact revoked.trans recovered.added.blobs

end Store

theorem Store.insertMessageEvent_sameBlobs (s : Store) (eventType : Option EventType)
    (envelope : MessageEnvelope) (now : Time) :
    SameBlobs s (s.insertMessageEvent eventType envelope now).2 := by
  cases eventType <;> exact ⟨rfl, rfl, rfl⟩

theorem Store.MessageMutated.sameBlobs {old new : MessageEnvelope}
    (mutated : MessageMutated s messageID accountID now old new middle) : SameBlobs s middle := by
  obtain ⟨_, rfl⟩ := mutated.frame
  exact ⟨rfl, rfl, rfl⟩

/-- Calls that neither store nor delete blobs leave the attachments and the queue as they are. -/
theorem sameBlobs_of_step (ok : step limits s call = .ok (given, s'))
    (other : call.writesBlobs = false) : SameBlobs s s' := by
  cases effect_of_step ok with
  | harmless _ _ blobs => exact blobs other
  | removed _ _ _ blobs => exact blobs
  | marked => exact ⟨rfl, rfl, rfl⟩
  | revoked => exact s.revoked_sameBlobs _ _ _
  | recovered recovered => exact recovered.sameBlobs
  | deleted => cases other
  | bundle _ _ outcome | single _ outcome => exact outcome.mlsWrites.only.sameBlobs
  | confirmed confirmed => exact .of_writes (Store.confirmMLSRevocation_writes confirmed)
  | message isMessage =>
    cases call
    all_goals try first | exact absurd isMessage Bool.false_ne_true | exact absurd other.symm Bool.false_ne_true
    case updateMessageEnvelope =>
      simp only [step] at ok
      obtain ⟨_, ok, -⟩ := answer_eq_ok ok
      obtain ⟨_, new, middle, mutated, -, -, rfl⟩ := Store.updateMessageEnvelope_ok ok
      exact mutated.sameBlobs.trans (middle.insertMessageEvent_sameBlobs _ new _)
  | pruned pruned =>
    have pruned := of_require pruned
    cases pruned
    exact ⟨rfl, rfl, rfl⟩

/-- The attachment is stored, and the message links it. -/
structure Store.Links (s : Store) (messageID : MessageID) (a : AttachmentEnvelope) : Prop where
  stored : a ∈ s.attachments
  link : ⟨messageID, a.id⟩ ∈ s.messageAttachments

namespace Store

variable {other : MessageID} {attachmentIDs : List AttachmentID} {a : AttachmentEnvelope}

section

variable (links : s.Links messageID a)

include links

theorem Links.of_same (same : SameBlobs s s') : s'.Links messageID a :=
  ⟨same.attachments ▸ links.stored, same.messageAttachments ▸ links.link⟩

theorem Links.deleteMessages {p : MessageEnvelope → Prop} [DecidablePred p]
    (kept : ∀ m ∈ s.messages, m.id = messageID → ¬ p m) : (s.deleteMessages p).Links messageID a := by
  refine ⟨links.stored, Table.mem_delete.mpr ⟨links.link, ?_⟩⟩
  rintro ⟨m, mem, hit, same⟩
  exact kept m mem same hit

theorem Links.deleteExpired {deviceID : DeviceID} {idempotencyKey : String}
    (kept : ∀ m ∈ s.messages, m.id = messageID → ¬ (¬ m.unexpired now ∧ m.sendKey = (deviceID, idempotencyKey))) :
    (s.deleteExpiredMessageByIdempotency deviceID idempotencyKey now).Links messageID a := by
  unfold deleteExpiredMessageByIdempotency
  split
  · exact links
  · next message found =>
    split
    · exact links
    · next expired =>
      have redacted : (s.redactEvents fun e => e.conversationID = some message.conversationID ∧
          e.copies message.id).Links messageID a := ⟨links.stored, links.link⟩
      apply redacted.deleteMessages
      intro m mem own same
      obtain ⟨stored, sameKey⟩ := IndexedTable.findIndex?_eq_some.mp found
      rw [Table.eq_of_key mem stored same] at own
      exact kept message stored own ⟨expired, sameKey⟩

theorem Links.releaseMessageAttachments
    (different : other ≠ messageID) : (s.releaseMessageAttachments other).Links messageID a := by
  have link : ⟨messageID, a.id⟩ ∈ s.messageAttachments.delete (·.messageID = other) :=
    Table.mem_delete.mpr ⟨links.link, fun same => different same.symm⟩
  simp only [Store.releaseMessageAttachments]
  obtain ⟨_, frame⟩ := enqueueEach_frame _ _
  rw [frame]
  refine ⟨Table.mem_delete.mpr ⟨links.stored, ?_⟩, link⟩
  rintro ⟨deleted, released, same⟩
  have unlinked := (List.mem_filter.mp released).2
  rw [same] at unlinked
  exact of_decide_eq_true unlinked ⟨_, link, rfl⟩

end

theorem redactOrphanedMessageEvents_sameBlobs (s : Store) : SameBlobs s s.redactOrphanedMessageEvents.2 := by
  unfold redactOrphanedMessageEvents
  split <;> exact ⟨rfl, rfl, rfl⟩

/-- The message is in the sweep's page of expired ones. -/
abbrev inPage (s : Store) (now : Time) (messageID : MessageID) : Prop :=
  ∃ m ∈ s.expiredMessages now, m.id = messageID

abbrev linkedByExpired (s : Store) (now : Time) (a : AttachmentEnvelope) : Prop :=
  ∃ link ∈ s.messageAttachments, s.inPage now link.messageID ∧ link.attachmentID = a.id

/-- The sweep after it took the expired messages' links and what only they linked. -/
def unlinkExpired (s : Store) (now : Time) : Store :=
  let messageAttachments := s.messageAttachments.delete fun link => s.inPage now link.messageID
  { s with
    messageAttachments
    attachments := s.attachments.delete fun a =>
      (∃ l ∈ s.attachments.rows.filter fun a => s.linkedByExpired now a, l.id = a.id) ∧
        ¬ ∃ link ∈ messageAttachments, link.attachmentID = a.id }

/-- The keys of the attachments that went with the expired messages. -/
def unlinkedKeys (s : Store) (now : Time) : List String :=
  ((s.attachments.rows.filter fun a => s.linkedByExpired now a).map (·.storageKey)).filter fun key =>
    ¬ ∃ a ∈ (s.unlinkExpired now).attachments, a.storageKey = key

/-- A page of old uploads that no message links. -/
def orphans (s : Store) (now : Time) : List AttachmentEnvelope :=
  ((s.attachments.rows.filter fun a => a.createdAt < now - orphanedAttachmentGrace ∧
    ¬ ∃ link ∈ s.messageAttachments, link.attachmentID = a.id).insertionSort attachmentOrder).take pruneBatch

/-- The sweep's last stage: reap the orphans and queue every key. -/
def reapOrphans (s : Store) (now : Time) (storageKeys : List String) : Store :=
  (storageKeys ++ (s.orphans now).map (·.storageKey)).foldl enqueueBlobDeletion
    { s with attachments := s.attachments.delete fun a => ∃ o ∈ s.orphans now, o.id = a.id }

/-- The sweep with its redactions, which keep every blob, between its stages. -/
theorem pruneExpiredContent_stages (s : Store) (now : Time) : ∃ redacted : Store,
    redacted.messages = s.messages ∧ SameBlobs (s.unlinkExpired now) redacted ∧
    SameBlobs ((redacted.deleteMessages fun m => s.inPage now m.id).reapOrphans now (s.unlinkedKeys now))
      (s.pruneExpiredContent now).2 := by
  have same := redactOrphanedMessageEvents_sameBlobs ((s.unlinkExpired now).redactEvents
    fun e => (∃ m ∈ s.expiredMessages now, e.conversationID = some m.conversationID) ∧
      ∃ m ∈ s.expiredMessages now, e.copies m.id)
  refine ⟨_, ?_, ⟨same.attachments, same.messageAttachments, same.blobDeletions⟩, ⟨rfl, rfl, rfl⟩⟩
  rw [redactOrphanedMessageEvents_messages]
  rfl

theorem mem_orphans {o : AttachmentEnvelope} (orphan : o ∈ s.orphans now) :
    o ∈ s.attachments ∧ ¬ ∃ link ∈ s.messageAttachments, link.attachmentID = o.id := by
  have sorted := List.mem_of_mem_take orphan
  obtain ⟨mem, condition⟩ := List.mem_filter.mp ((List.mem_insertionSort _).mp sorted)
  exact ⟨mem, (of_decide_eq_true condition).2⟩

theorem mem_reapOrphans {storageKeys : List String} :
    a ∈ (s.reapOrphans now storageKeys).attachments ↔ a ∈ s.attachments ∧ a ∉ s.orphans now := by
  unfold reapOrphans
  obtain ⟨_, frame⟩ := enqueueEach_frame _ _
  rw [frame]
  refine Table.mem_delete.trans (and_congr_right fun mem => not_congr ⟨?_, fun own => ⟨a, own, rfl⟩⟩)
  rintro ⟨o, orphan, same⟩
  exact Table.eq_of_key (mem_orphans orphan).1 mem same ▸ orphan

theorem reapOrphans_links (s : Store) (now : Time) (storageKeys : List String) :
    (s.reapOrphans now storageKeys).messageAttachments = s.messageAttachments := by
  unfold reapOrphans
  obtain ⟨_, frame⟩ := enqueueEach_frame _ _
  rw [frame]

theorem mem_unlinkExpired : a ∈ (s.unlinkExpired now).attachments ↔ a ∈ s.attachments ∧
    (s.linkedByExpired now a → ∃ link ∈ (s.unlinkExpired now).messageAttachments, link.attachmentID = a.id) := by
  refine Table.mem_delete.trans (and_congr_right fun mem => ?_)
  rw [not_and_not_right]
  refine imp_congr_left ⟨?_, fun linked => ⟨a, List.mem_filter.mpr ⟨mem, decide_eq_true linked⟩, rfl⟩⟩
  rintro ⟨l, linked, same⟩
  obtain ⟨stored, linked⟩ := List.mem_filter.mp linked
  exact Table.eq_of_key stored mem same ▸ of_decide_eq_true linked

section

variable (links : s.Links messageID a)

include links

/-- The sweep keeps what a message it does not expire links. -/
theorem Links.pruneExpiredContent (kept : ∀ m ∈ s.messages, m.id = messageID → m.unexpired now) :
    (s.pruneExpiredContent now).2.Links messageID a := by
  have notInPage : ¬ s.inPage now messageID := by
    rintro ⟨m, expired, own⟩
    obtain ⟨mem, past⟩ := mem_expiredMessages expired
    exact past (kept m mem own)
  obtain ⟨redacted, messages, unlinked, swept⟩ := s.pruneExpiredContent_stages now
  have link : ⟨messageID, a.id⟩ ∈ (s.unlinkExpired now).messageAttachments :=
    Table.mem_delete.mpr ⟨links.link, notInPage⟩
  have first : (s.unlinkExpired now).Links messageID a :=
    ⟨mem_unlinkExpired.mpr ⟨links.stored, fun _ => ⟨_, link, rfl⟩⟩, link⟩
  have second : (redacted.deleteMessages fun m => s.inPage now m.id).Links messageID a := by
    apply (first.of_same unlinked).deleteMessages
    intro m _ own
    exact own ▸ notInPage
  refine Links.of_same ⟨mem_reapOrphans.mpr ⟨second.stored, ?_⟩, ?_⟩ swept
  · intro orphan
    exact (mem_orphans orphan).2 ⟨_, second.link, rfl⟩
  · rw [reapOrphans_links]
    exact second.link

theorem Links.saveMessageEnvelope {newID : MessageID}
    (kept : ∀ m ∈ s.messages, m.id = messageID → ¬ (¬ m.unexpired now ∧ m.sendKey = request.sendKey))
    (ok : s.saveMessageEnvelope now newID withSyncEvent request = .ok (saved, s')) :
    s'.Links messageID a := by
  obtain ⟨_, -, -, cleared, rfl, ⟨_, -, -, -, rfl⟩ | ⟨-, sending⟩⟩ := saveMessageEnvelope_eq_ok.mp ok
  · exact links.deleteExpired kept
  · obtain ⟨_, sent, middle, -, -, -, -, inserting, rfl⟩ := saveNewMessage_inserts sending
    obtain ⟨_, _, -, inserted, added⟩ := insertMessage_ok inserting
    have cleared := links.deleteExpired kept
    refine Links.of_same ⟨?_, ?_⟩ (middle.insertMessageEvent_sameBlobs _ sent now) <;> rw [inserted]
    · exact cleared.stored
    · exact (added _).mpr (.inl cleared.link)

end

theorem Links.deleteMessageEnvelope {markerCiphertext : Bytes} {cryptoProtocol : String}
    {cryptoMetadata : CryptoMetadata} {eventType : Option EventType}
    {answer : MessageEnvelope × EventID} (links : s.Links messageID a)
    (different : other ≠ messageID)
    (ok : s.deleteMessageEnvelope now other accountID markerCiphertext cryptoProtocol
      cryptoMetadata eventType = .ok (answer, s')) : s'.Links messageID a := by
  obtain ⟨old, new, middle, _, mutated, -, -, rfl, rfl⟩ := deleteMessageEnvelope_ok ok
  have released := (links.of_same mutated.sameBlobs).releaseMessageAttachments different
  refine Links.of_same ?_ (insertMessageEvent_sameBlobs _ eventType new now)
  exact ⟨released.stored, released.link⟩

theorem deleteAccountData_blobs {keys : List String}
    (ok : s.deleteAccountData now accountID = .ok (keys, s')) :
    s'.attachments = s.attachments.delete (·.ownerAccountID = accountID) ∧
      (∀ link, link ∈ s'.messageAttachments ↔ link ∈ s.messageAttachments ∧
        ¬ ∃ a ∈ s.attachments, a.id = link.attachmentID ∧ a.ownerAccountID = accountID) ∧
      ∀ key, key ∈ s'.blobDeletions ↔
        key ∈ s.blobDeletions ∨ ∃ a ∈ s.attachments, a.ownerAccountID = accountID ∧ a.storageKey = key := by
  unfold deleteAccountData at ok
  split at ok
  · have ok := of_require ok
    have ok := of_require ok
    cases ok
    -- Queueing, marking and retiring change neither the attachments nor their links.
    have queue := mem_enqueueEach s
      ((s.attachments.rows.filter (·.ownerAccountID = accountID)).map (·.storageKey))
    obtain ⟨blobDeletions, frame⟩ := s.enqueueEach_frame
      ((s.attachments.rows.filter (·.ownerAccountID = accountID)).map (·.storageKey))
    rw [frame] at queue ⊢
    have same := SameBlobs.of_writes (retireEach_writes
      (Store.markRevoked { s with blobDeletions } (·.accountID = accountID) now) accountID now
      (s.accountDeviceIDs accountID fun _ => True))
    refine ⟨?_, fun link => Table.mem_delete.trans ?_, fun key => ?_⟩
    · exact congrArg (·.delete (·.ownerAccountID = accountID)) same.attachments
    · rw [same.attachments, same.messageAttachments]
      rfl
    · rw [same.blobDeletions]
      refine (queue key).trans (or_congr_right ?_)
      simp [Table.mem_def, and_assoc]
  · cases ok

end Store

/-- The call deletes the attachment, its owner's account or the message that links it. -/
def Call.unlinks (messageID : MessageID) (a : AttachmentEnvelope) : Call → Prop
  | deleteAttachment id _ => id = a.id
  | deleteAccountData _ accountID => accountID = a.ownerAccountID
  | deleteMessageEnvelope _ id .. => id = messageID
  | _ => False

/-- A linked attachment stays while its message does. -/
theorem Store.Links.of_step {a : AttachmentEnvelope} (links : s.Links messageID a)
    (ok : step limits s call = .ok (given, s')) (keeps : ¬ call.unlinks messageID a)
    (kept : ∀ m ∈ s.messages, m.id = messageID → ¬ call.expires m) : s'.Links messageID a := by
  by_cases other : call.writesBlobs = false
  · exact links.of_same (sameBlobs_of_step ok other)
  cases call <;> try exact absurd rfl other
  all_goals
    simp only [step] at ok
    obtain ⟨_, ok, -⟩ := answer_eq_ok ok
  case deleteAccountData =>
    obtain ⟨attachments, linked, -⟩ := deleteAccountData_blobs ok
    refine ⟨attachments ▸ Table.mem_delete.mpr ⟨links.stored, fun own => keeps own.symm⟩, ?_⟩
    refine (linked _).mpr ⟨links.link, ?_⟩
    rintro ⟨b, stored, same, own⟩
    rw [Table.eq_of_key stored links.stored same] at own
    exact keeps own.symm
  case createAttachmentEnvelope =>
    obtain ⟨-, _, inserted, rfl⟩ := createAttachmentEnvelope_ok ok
    exact ⟨(Table.mem_of_insert? inserted a).mpr (.inl links.stored), links.link⟩
  case deleteAttachment =>
    obtain ⟨-, -, _, rfl, -⟩ := deleteAttachment_ok ok
    exact ⟨Table.mem_delete.mpr ⟨links.stored, fun own => keeps own.symm⟩,
      Table.mem_delete.mpr ⟨links.link, fun own => keeps own.symm⟩⟩
  case saveMessageEnvelope =>
    exact links.saveMessageEnvelope kept ok
  case deleteMessageEnvelope => exact links.deleteMessageEnvelope keeps ok
  case pruneExpiredContent =>
    cases ok
    exact links.pruneExpiredContent fun m mem own => not_not.mp (kept m mem own)

/-- No two attachments share a blob. -/
def Store.AttachmentKeysUnique (s : Store) : Prop :=
  ∀ a ∈ s.attachments, ∀ other ∈ s.attachments, a.storageKey = other.storageKey → a = other

/-- Attachments only go, and exactly the keys of those that went are queued. -/
structure AttachmentsReleased (s s' : Store) : Prop where
  attachments : ∀ a ∈ s'.attachments, a ∈ s.attachments
  queue : ∀ key, key ∈ s'.blobDeletions ↔
    key ∈ s.blobDeletions ∨ ∃ a ∈ s.attachments, a ∉ s'.attachments ∧ a.storageKey = key

namespace AttachmentsReleased

/-- A call that leaves the attachments and the queue releases nothing. -/
theorem of_eq (attachments : s'.attachments = s.attachments) (queue : s'.blobDeletions = s.blobDeletions) :
    AttachmentsReleased s s' := by
  refine ⟨fun a mem => attachments ▸ mem, fun key => ?_⟩
  rw [queue, attachments]
  exact (or_iff_left fun ⟨_, mem, gone, _⟩ => gone mem).symm

theorem of_same (same : SameBlobs s s') : AttachmentsReleased s s' :=
  of_eq same.attachments same.blobDeletions

theorem of_list (gone : List AttachmentEnvelope) (stored : ∀ a ∈ gone, a ∈ s.attachments)
    (attachments : ∀ a, a ∈ s'.attachments ↔ a ∈ s.attachments ∧ a ∉ gone)
    (queue : ∀ key, key ∈ s'.blobDeletions ↔ key ∈ s.blobDeletions ∨ ∃ a ∈ gone, a.storageKey = key) :
    AttachmentsReleased s s' := by
  refine ⟨fun a mem => ((attachments a).mp mem).1, fun key => (queue key).trans (or_congr_right ?_)⟩
  constructor
  · rintro ⟨a, went, same⟩
    exact ⟨a, stored a went, fun kept => ((attachments a).mp kept).2 went, same⟩
  · rintro ⟨a, mem, missing, same⟩
    refine ⟨a, not_not.mp fun kept => missing ((attachments a).mpr ⟨mem, kept⟩), same⟩

/-- Calls around the release leave the blobs as they are. -/
theorem around {before after : Store} (released : AttachmentsReleased before after)
    (first : SameBlobs s before) (last : SameBlobs after s') : AttachmentsReleased s s' := by
  obtain ⟨attachments, queue⟩ := released
  rw [← last.attachments, ← last.blobDeletions, first.attachments, first.blobDeletions] at *
  exact ⟨attachments, queue⟩

theorem releaseMessageAttachments (s : Store) (messageID : MessageID) :
    AttachmentsReleased s (s.releaseMessageAttachments messageID) := by
  refine .of_list
    ((s.attachments.rows.filter fun a => ∃ link ∈ s.messageAttachments,
        link.messageID = messageID ∧ link.attachmentID = a.id).filter fun a =>
      ¬ ∃ link ∈ s.messageAttachments.delete (·.messageID = messageID), link.attachmentID = a.id)
    (fun a mem => (List.mem_filter.mp (List.mem_filter.mp mem).1).1) (fun a => ?_) (fun key => ?_)
  · simp only [Store.releaseMessageAttachments]
    obtain ⟨_, frame⟩ := Store.enqueueEach_frame _ _
    rw [frame]
    refine Table.mem_delete.trans (and_congr_right fun mem => not_congr ⟨?_, fun own => ⟨a, own, rfl⟩⟩)
    rintro ⟨other, went, same⟩
    have stored := (List.mem_filter.mp (List.mem_filter.mp went).1).1
    exact Table.eq_of_key stored mem same ▸ went
  · refine (Store.mem_enqueueEach _ _ key).trans (or_congr_right ?_)
    exact List.mem_map

/-- The sweep queues the key of every attachment it deletes, if no two of them share a key. -/
theorem pruneExpiredContent (unique : s.AttachmentKeysUnique) (now : Time) :
    AttachmentsReleased s (s.pruneExpiredContent now).2 := by
  obtain ⟨redacted, -, unlinked, swept⟩ := s.pruneExpiredContent_stages now
  have reaped : ∀ a, a ∈ (s.pruneExpiredContent now).2.attachments ↔ a ∈ (s.unlinkExpired now).attachments ∧
        a ∉ (redacted.deleteMessages fun m => s.inPage now m.id).orphans now := by
    intro a
    rw [swept.attachments, Store.mem_reapOrphans, ← unlinked.attachments]
    rfl
  have orphans : ∀ a ∈ (redacted.deleteMessages fun m => s.inPage now m.id).orphans now,
      a ∈ (s.unlinkExpired now).attachments := by
    intro a orphan
    exact unlinked.attachments ▸ (Store.mem_orphans orphan).1
  have queue : ∀ key, key ∈ (s.pruneExpiredContent now).2.blobDeletions ↔ key ∈ s.blobDeletions ∨
      key ∈ s.unlinkedKeys now ∨
        ∃ a ∈ (redacted.deleteMessages fun m => s.inPage now m.id).orphans now, a.storageKey = key := by
    intro key
    rw [swept.blobDeletions]
    refine (Store.mem_enqueueEach _ _ key).trans ?_
    rw [List.mem_append, List.mem_map]
    exact or_congr_left (iff_of_eq (congrArg (key ∈ ·) unlinked.blobDeletions))
  refine ⟨fun a mem => (Store.mem_unlinkExpired.mp ((reaped a).mp mem).1).1, fun key => ?_⟩
  refine (queue key).trans (or_congr_right ?_)
  constructor
  · rintro (went | ⟨a, orphan, same⟩)
    · obtain ⟨linked, missing⟩ := List.mem_filter.mp went
      obtain ⟨a, expired, same⟩ := List.mem_map.mp linked
      refine ⟨a, (List.mem_filter.mp expired).1, fun kept => ?_, same⟩
      exact of_decide_eq_true missing ⟨a, ((reaped a).mp kept).1, same⟩
    · exact ⟨a, (Store.mem_unlinkExpired.mp (orphans a orphan)).1, fun kept => ((reaped a).mp kept).2 orphan, same⟩
  · rintro ⟨a, mem, missing, same⟩
    by_cases kept : a ∈ (s.unlinkExpired now).attachments
    · exact .inr ⟨a, not_not.mp fun other => missing ((reaped a).mpr ⟨kept, other⟩), same⟩
    · refine .inl (List.mem_filter.mpr ⟨?_, decide_eq_true ?_⟩)
      · refine List.mem_map.mpr ⟨a, List.mem_filter.mpr ⟨mem, decide_eq_true ?_⟩, same⟩
        by_contra unlinkedByExpired
        exact kept (Store.mem_unlinkExpired.mpr ⟨mem, fun linked => absurd linked unlinkedByExpired⟩)
      · rintro ⟨other, stays, sameKey⟩
        have stored := (Store.mem_unlinkExpired.mp stays).1
        exact kept (unique a mem other stored (same.trans sameKey.symm) ▸ stays)

/-- Every public call releases the attachments that go. -/
theorem of_step (unique : s.AttachmentKeysUnique) (ok : step limits s call = .ok (given, s'))
    (stores : ∀ now a, call ≠ .createAttachmentEnvelope now a) : AttachmentsReleased s s' := by
  by_cases other : call.writesBlobs = false
  · exact .of_same (sameBlobs_of_step ok other)
  cases call <;> try exact absurd rfl other
  all_goals
    simp only [step] at ok
    obtain ⟨_, ok, -⟩ := answer_eq_ok ok
  case deleteAccountData now accountID =>
    obtain ⟨attachments, -, queue⟩ := Store.deleteAccountData_blobs ok
    refine ⟨fun a mem => (Table.mem_delete.mp (attachments ▸ mem)).1, fun key => ?_⟩
    refine (queue key).trans (or_congr_right (exists_congr fun a => and_congr_right fun mem => ?_))
    rw [attachments, Table.mem_delete, not_and_not_right]
    exact and_congr_left fun _ => ⟨fun own _ => own, fun own => own mem⟩
  case createAttachmentEnvelope => exact absurd rfl (stores _ _)
  case deleteAttachment =>
    obtain ⟨stored, named, _, rfl, queue⟩ := Store.deleteAttachment_ok ok
    refine .of_list [_] (fun a went => List.mem_singleton.mp went ▸ stored) (fun a => ?_) fun key => ?_
    · rw [Table.mem_delete, List.mem_singleton]
      refine and_congr_right fun mem => not_congr ⟨fun same => ?_, fun same => same ▸ named⟩
      exact Table.eq_of_key mem stored (same.trans named.symm)
    · refine (queue key).trans (or_congr_right ?_)
      simp only [List.mem_singleton, exists_eq_left]
      exact eq_comm
  case saveMessageEnvelope =>
    obtain ⟨_, _, _, rfl⟩ := Store.saveMessageEnvelope_frame ok
    exact .of_eq rfl rfl
  case deleteMessageEnvelope =>
    obtain ⟨old, new, middle, released, mutated, -, -, release, rfl⟩ := Store.deleteMessageEnvelope_ok ok
    have went : AttachmentsReleased middle released := release ▸ releaseMessageAttachments middle _
    refine went.around mutated.sameBlobs ?_
    have redacted : SameBlobs released (released.redactEvents (released.supersededBy new)) := ⟨rfl, rfl, rfl⟩
    exact redacted.trans (Store.insertMessageEvent_sameBlobs _ _ new _)
  case pruneExpiredContent =>
    cases ok
    exact pruneExpiredContent unique _

end AttachmentsReleased

end Veritra.Storage
