import Veritra.Proofs.Storage.Blobs
import Veritra.Soundness.CommitOrder

/-! # Sending a message twice

A client that lost the answer to a send submits the request again. The store finds the message under
the sender's device and key, compares it with the request, and answers with the stored row. The
comparison covers what other calls may change: the sweep of an expired message clears the references
to it, and a request whose attachments are gone is refused before the stored message is looked up.
-/

namespace Veritra.Storage

open Relational Machine

variable {s s' : Store} {call : Call} {given : Answer} {row request : MessageEnvelope} {now : Time}
  {newID : MessageID} {withSyncEvent : Bool} {attachmentIDs : List AttachmentID}
  {saved : SavedMessage}

/-- The request is an edit or a deletion of the message. -/
def Call.mutates (messageID : MessageID) : Call → Prop
  | updateMessageEnvelope _ id .. | deleteMessageEnvelope _ id .. => id = messageID
  | _ => False

/-- The message answers the other one or belongs to its thread. -/
def MessageEnvelope.RefersTo (m other : MessageEnvelope) : Prop :=
  m.replyToID = some other.id ∨ m.threadRootID = some other.id
  deriving Decidable

namespace Store

theorem mem_deleteMessages_of_kept {p : MessageEnvelope → Prop} [DecidablePred p]
    (mem : row ∈ s.messages) (kept : ¬ p row) (referred : ∀ m ∈ s.messages, row.RefersTo m → ¬ p m) :
    row ∈ (s.deleteMessages p).messages := by
  have stays : row ∈ s.messages.delete p := IndexedTable.mem_delete.mpr ⟨mem, kept⟩
  have reply : ¬ ∃ m ∈ s.messages, p m ∧ row.replyToID = some m.id := by
    rintro ⟨m, gone, hit, reply⟩
    exact referred m gone (.inl reply) hit
  have thread : ¬ ∃ m ∈ s.messages, p m ∧ row.threadRootID = some m.id := by
    rintro ⟨m, gone, hit, thread⟩
    exact referred m gone (.inr thread) hit
  apply IndexedTable.mem_update.mpr
  · exact .inl ⟨IndexedTable.mem_update.mpr (.inl ⟨stays, reply⟩), thread⟩
  · exact fun _ => rfl

theorem mem_deleteExpired {deviceID : DeviceID} {idempotencyKey : String} (mem : row ∈ s.messages)
    (stays : ∀ m ∈ s.messages, m = row ∨ row.RefersTo m →
      ¬ (¬ m.unexpired now ∧ m.sendKey = (deviceID, idempotencyKey))) :
    row ∈ (s.deleteExpiredMessageByIdempotency deviceID idempotencyKey now).messages := by
  unfold deleteExpiredMessageByIdempotency
  split
  · exact mem
  · next message found =>
    obtain ⟨stored, sameKey⟩ := IndexedTable.findIndex?_eq_some.mp found
    split
    · exact mem
    · next expired =>
      have spared {m : MessageEnvelope} (inTable : m ∈ s.messages) (kept : m = row ∨ row.RefersTo m) :
          ¬ m.id = message.id := by
        intro own
        rw [Table.eq_of_key inTable stored own] at kept
        exact stays message stored kept ⟨expired, sameKey⟩
      exact mem_deleteMessages_of_kept mem (spared mem (.inl rfl)) fun m inTable refers =>
        spared inTable (.inr refers)

theorem mem_pruneExpiredContent (mem : row ∈ s.messages)
    (stays : ∀ m ∈ s.messages, m = row ∨ row.RefersTo m → m.unexpired now) :
    row ∈ (s.pruneExpiredContent now).2.messages := by
  rw [pruneExpiredContent_messages]
  apply mem_deleteMessages_of_kept
  · exact mem
  · exact not_expiring mem (stays row mem (.inl rfl))
  · intro m inTable refers
    exact not_expiring inTable (stays m inTable (.inr refers))

end Store

/-- A row stays as it is while nobody edits or deletes its message, and neither it nor a message that
it refers to is deleted as expired. -/
theorem row_of_step {limits : Limits} (ok : step limits s call = .ok (given, s'))
    (mem : row ∈ s.messages) (unchanged : ¬ call.mutates row.id)
    (stays : ∀ m ∈ s.messages, m = row ∨ row.RefersTo m → ¬ call.expires m) : row ∈ s'.messages := by
  by_cases isMessage : call.isMessage = false
  · exact messages_of_step ok isMessage ▸ mem
  cases call <;> try exact absurd rfl isMessage
  all_goals
    simp only [step] at ok
    obtain ⟨_, ok, -⟩ := answer_eq_ok ok
  case saveMessageEnvelope =>
    obtain ⟨cleared, rfl, outcome⟩ := Store.saveMessageEnvelope_ok ok
    have kept := s.mem_deleteExpired mem stays
    rcases outcome with rfl | ⟨_, _, _, -, -, outcome⟩
    · exact kept
    · exact (outcome.mem_messages row).mpr (.inl kept)
  case updateMessageEnvelope =>
    obtain ⟨_, _, _, mutated, -, rows⟩ := Store.updateMessageEnvelope_mutates ok
    rw [rows]
    exact (mutated.rows row).mpr (.inl ⟨mem, fun own => unchanged own.symm⟩)
  case deleteMessageEnvelope =>
    obtain ⟨_, _, _, mutated, -, -, rows⟩ := Store.deleteMessageEnvelope_mutates ok
    rw [rows]
    exact (mutated.rows row).mpr (.inl ⟨mem, fun own => unchanged own.symm⟩)
  case pruneExpiredContent =>
    cases ok
    exact s.mem_pruneExpiredContent mem fun m inTable kept => not_not.mp (stays m inTable kept)

/-- The state answers a retry of the request: the stored row carries what the request carries, and the
attachments that the request lists are linked to it. -/
structure Store.Answers (s : Store) (request row : MessageEnvelope) (attachmentIDs : List AttachmentID) :
    Prop where
  stored : row ∈ s.messages
  sendKey : row.sendKey = request.sendKey
  same : sameIdempotentMessage row request.filled
  parsed : parseAttachmentIDs request.filled.attachmentRefs = .ok attachmentIDs
  linked : ∀ id ∈ attachmentIDs, ∃ a, a.id = id ∧ a.ownerAccountID = request.senderAccountID ∧
    a.conversationID = some request.conversationID ∧ s.Links row.id a

/-- A message that a committed save stored anew answers its retries, if the request's references were
stored as they are. -/
theorem Store.answers_of_new (parsed : parseAttachmentIDs request.filled.attachmentRefs = .ok attachmentIDs)
    (owns : s.OwnsAttachments request attachmentIDs)
    (sending : s.saveNewMessage now newID withSyncEvent request.filled attachmentIDs = .ok (saved, s'))
    (reply : nullableString request.replyToID = request.replyToID)
    (thread : nullableString request.threadRootID = request.threadRootID) :
    s'.Answers request saved.envelope.stored attachmentIDs := by
  obtain ⟨_, sent, middle, sentEq, savedEq, -, -, inserting, after⟩ := saveNewMessage_inserts sending
  obtain ⟨messages, _, inserted, stores, links⟩ := insertMessage_ok inserting
  have blobs := middle.insertMessageEvent_sameBlobs
    (if withSyncEvent then some .messageEnvelopeCreated else none) sent now
  rw [savedEq]
  subst after
  constructor
  case stored =>
    rw [insertMessageEvent_messages, stores]
    exact (IndexedTable.mem_of_insert? inserted _).mpr (.inr rfl)
  case sendKey =>
    rw [sentEq]
    rfl
  case same =>
    rw [sentEq]
    exact ⟨rfl, rfl, rfl, rfl, rfl, rfl, rfl, reply, thread⟩
  case parsed => exact parsed
  case linked =>
    intro id listed
    obtain ⟨a, stored, same, owner, conversation⟩ := owns id listed
    refine ⟨a, same, owner, conversation, Links.of_same ⟨?_, ?_⟩ blobs⟩ <;> rw [stores]
    · exact stored
    · exact (links _).mpr (.inr ⟨id, listed, by rw [same]; rfl⟩)

/-- An accepted request leaves a stored message that answers its retries. -/
theorem Store.answers_of_saved
    (accepted : s.saveMessageEnvelope now newID withSyncEvent request = .ok (saved, s'))
    (parsed : parseAttachmentIDs request.filled.attachmentRefs = .ok attachmentIDs)
    (reply : nullableString request.replyToID = request.replyToID)
    (thread : nullableString request.threadRootID = request.threadRootID)
    (linked : saved.duplicate → ∀ id ∈ attachmentIDs, ⟨saved.envelope.id, id⟩ ∈ s'.messageAttachments) :
    ∃ row, s'.Answers request row attachmentIDs ∧ row.id = saved.envelope.id ∧
      row.expiresAt = saved.envelope.expiresAt := by
  obtain ⟨_, listed, owns, cleared, clearing, outcome⟩ := saveMessageEnvelope_eq_ok.mp accepted
  obtain rfl := Except.ok.inj (parsed.symm.trans listed)
  have attachments : cleared.attachments = s.attachments := by
    rw [clearing]
    unfold deleteExpiredMessageByIdempotency
    split
    · rfl
    · split <;> rfl
  unfold OwnsAttachments at owns
  rw [← attachments] at owns
  rcases outcome with ⟨existing, found, same, rfl, rfl⟩ | ⟨-, sending⟩
  · obtain ⟨stored, sendKey⟩ := IndexedTable.findIndex?_eq_some.mp found
    refine ⟨existing, ⟨stored, sendKey, same, parsed, fun id mem => ?_⟩, rfl, rfl⟩
    obtain ⟨a, inTable, rfl, owner, conversation⟩ := owns id mem
    exact ⟨a, rfl, owner, conversation, inTable, linked rfl a.id mem⟩
  · exact ⟨_, answers_of_new parsed owns sending reply thread, rfl, rfl⟩

/-- A state that answers a retry does so with the stored row and without a change. -/
theorem Store.Answers.retry (answers : s.Answers request row attachmentIDs)
    (unexpired : row.unexpired now) (newID : MessageID) (withSyncEvent : Bool) :
    s.saveMessageEnvelope now newID withSyncEvent request = .ok (⟨row, true, 0, []⟩, s) := by
  have found : s.messages.findIndex? request.sendKey = some row :=
    IndexedTable.findIndex?_eq_some.mpr ⟨answers.stored, answers.sendKey⟩
  have nothing : s.deleteExpiredMessageByIdempotency request.senderDeviceID request.idempotencyKey now = s := by
    unfold deleteExpiredMessageByIdempotency
    rw [show s.messages.findIndex? (request.senderDeviceID, request.idempotencyKey) = some row from found]
    exact if_pos unexpired
  refine saveMessageEnvelope_eq_ok.mpr ⟨attachmentIDs, answers.parsed, ?_, s, nothing.symm, .inl ?_⟩
  · intro id listed
    obtain ⟨a, same, owner, conversation, links⟩ := answers.linked id listed
    exact ⟨a, links.stored, same, owner, conversation⟩
  · exact ⟨row, found, answers.same, rfl, rfl⟩

/-- The call deletes one of the attachments, or the account that owns them. -/
def Call.dropsAttachments (attachmentIDs : List AttachmentID) (owner : AccountID) : Call → Prop
  | deleteAttachment id _ => id ∈ attachmentIDs
  | deleteAccountData _ accountID => accountID = owner ∧ attachmentIDs ≠ []
  | _ => False

/-- The call leaves the message alone, and what a retry of its request depends on. -/
structure Spares (request message : MessageEnvelope) (attachmentIDs : List AttachmentID) (s : Store)
    (call : Call) : Prop where
  unchanged : ¬ call.mutates message.id
  stays : ∀ m ∈ s.messages, m.id = message.id ∨ request.RefersTo m → ¬ call.expires m
  attachments : ¬ call.dropsAttachments attachmentIDs request.senderAccountID

/-- A committed call that spares the message leaves its retries answered. -/
theorem Store.Answers.step {limits : Limits} (answers : s.Answers request row attachmentIDs)
    (spares : Spares request row attachmentIDs s call) (ok : step limits s call = .ok (given, s')) :
    s'.Answers request row attachmentIDs where
  stored := by
    refine row_of_step ok answers.stored spares.unchanged fun m mem kept => spares.stays m mem ?_
    have reply : row.replyToID = request.replyToID := answers.same.2.2.2.2.2.2.2.1
    have thread : row.threadRootID = request.threadRootID := answers.same.2.2.2.2.2.2.2.2
    refine kept.imp (congrArg _) fun refers => ?_
    unfold MessageEnvelope.RefersTo
    rw [← reply, ← thread]
    exact refers
  sendKey := answers.sendKey
  same := answers.same
  parsed := answers.parsed
  linked := by
    intro id listed
    obtain ⟨a, same, owner, conversation, links⟩ := answers.linked id listed
    refine ⟨a, same, owner, conversation, links.of_step ok ?_ ?_⟩
    · intro unlinks
      cases call
      case deleteAttachment => exact spares.attachments (unlinks.trans same ▸ listed)
      case deleteAccountData =>
        exact spares.attachments ⟨unlinks.trans owner, List.ne_nil_of_mem listed⟩
      case deleteMessageEnvelope => exact spares.unchanged unlinks
      all_goals exact unlinks
    · exact fun m mem own => spares.stays m mem (.inl own)

/-- A request that was accepted is answered again with the stored message, after any calls that spare
the message and what the request refers to and attaches. -/
theorem send_retry_answered {limits : Limits} {s₀ s₁ s₂ : Store} {now : Time} {newID : MessageID}
    {withSyncEvent : Bool} {request : MessageEnvelope} {saved : SavedMessage}
    {attachmentIDs : List AttachmentID} {history : List Entry}
    (accepted : step limits s₀ (.saveMessageEnvelope now newID withSyncEvent request) = .ok (.saved saved, s₁))
    (parsed : parseAttachmentIDs request.filled.attachmentRefs = .ok attachmentIDs)
    (reply : nullableString request.replyToID = request.replyToID)
    (thread : nullableString request.threadRootID = request.threadRootID)
    (linked : saved.duplicate → ∀ id ∈ attachmentIDs, ⟨saved.envelope.id, id⟩ ∈ s₁.messageAttachments)
    (run : Run (step limits) (fun s call => (∃ committed, step limits s call = .ok committed) →
      Spares request saved.envelope attachmentIDs s call) s₁ history s₂)
    (later : Time) (unexpired : saved.envelope.unexpired later) (newID' : MessageID)
    (withSyncEvent' : Bool) :
    ∃ stored ∈ s₂.messages, stored.id = saved.envelope.id ∧
      step limits s₂ (.saveMessageEnvelope later newID' withSyncEvent' request) =
        .ok (.saved ⟨stored, true, 0, []⟩, s₂) := by
  obtain ⟨_, committed, same⟩ := answer_eq_ok accepted
  cases same
  obtain ⟨row, answers, sameID, sameExpiry⟩ := Store.answers_of_saved committed parsed reply thread linked
  have live {now : Time} (unexpired : saved.envelope.unexpired now) : row.unexpired now := by
    unfold MessageEnvelope.unexpired
    rw [sameExpiry]
    exact unexpired
  have answers : s₂.Answers request row attachmentIDs := by
    refine run.preserves (·.Answers request row attachmentIDs) answers ?_
    intro s call given s' spares answers committed
    have spares := spares ⟨_, committed⟩
    exact answers.step ⟨sameID ▸ spares.unchanged, sameID ▸ spares.stays, spares.attachments⟩ committed
  refine ⟨row, answers.stored, sameID, ?_⟩
  simp only [step, answers.retry (live unexpired) newID' withSyncEvent']
  rfl

namespace Example

/-- A message of Alice's to the room. -/
def aliceSays (ciphertext : Bytes) (idempotencyKey : String) (replyToID : Option MessageID)
    (expiresAt : Option Time) : MessageEnvelope :=
  { id := "", conversationID := "room", senderAccountID := alice, senderDeviceID := "alice-phone",
    idempotencyKey, cryptoProtocol := "mls", ciphertext, cryptoMetadata := ⟨"", none⟩,
    attachmentRefs := ⟨"", none⟩, replyToID, threadRootID := none, createdAt := 0, editedAt := none,
    deletedAt := none, expiresAt }

/-- Alice has asked a question that expires at 10 s. -/
def asked : Store :=
  exec (step limits) Store.init
    (room ++ [.saveMessageEnvelope 2 "question" true (aliceSays [7] "ask" none (some (10 * second)))])

/-- Her reply to it, which does not expire. -/
def reply : MessageEnvelope := aliceSays [8] "answer" (some "question") none

/-- What the server answers to it. -/
def savedReply : SavedMessage :=
  ⟨{ reply.filled with id := "reply", createdAt := 3 }, false, 3, [alice, bob]⟩

/-- A message with an attachment. -/
def withFile : MessageEnvelope :=
  { aliceSays [9] "file" none none with attachmentRefs := ⟨"[\"file\"]", some [.text "file"]⟩ }

/-- Alice has sent the message with the attachment. -/
def fileSent : Store :=
  exec (step limits) asked
    [.createAttachmentEnvelope 3 ⟨"file", alice, some "room", "blob", 1, 3⟩,
      .saveMessageEnvelope 4 "sent" true withFile]

/-- The state after a message of Alice's was accepted. -/
def accepted (request : MessageEnvelope) : Store :=
  (serve (step limits) asked (.saveMessageEnvelope 3 "reply" true request)).after

end Example

open Example in
/-- A sweep before the question expires leaves the reply answered. -/
theorem send_retry_answered_reply :
    ∃ stored ∈ (serve (step limits) (accepted reply) (.pruneExpiredContent 4)).after.messages,
      stored.id = "reply" ∧
      step limits (serve (step limits) (accepted reply) (.pruneExpiredContent 4)).after
        (.saveMessageEnvelope 5 "" true reply) = .ok (.saved ⟨stored, true, 0, []⟩,
          (serve (step limits) (accepted reply) (.pruneExpiredContent 4)).after) := by
  have answered : (serve (step limits) asked (.saveMessageEnvelope 3 "reply" true reply)).answer =
      .ok (.saved savedReply) := by decide +kernel
  have stays : ∀ m ∈ (accepted reply).messages, m.unexpired 4 := by decide +kernel
  have parsed : parseAttachmentIDs reply.filled.attachmentRefs = .ok [] := rfl
  refine send_retry_answered (ok_of_serve answered) parsed (by decide +kernel) rfl nofun
    (.call _ .start fun _ => ⟨id, ?_, id⟩) 5 nofun "" true
  exact fun m mem _ => not_not.mpr (stays m mem)

open Example in
/-- The retry is refused as a conflict once the sweep has taken the question, although the reply itself
is stored and does not expire. So is the immediate retry of a message with a blank reference, and one
whose attachment was deleted meanwhile is refused as invalid. -/
theorem send_retry_conflicts_after_sweep :
    (serve (step limits) asked (.saveMessageEnvelope 3 "reply" true reply)).answer = .ok (.saved savedReply) ∧
    (serve (step limits) (exec (step limits) (accepted reply) [.pruneExpiredContent (11 * second)])
      (.saveMessageEnvelope (12 * second) "" true reply)).answer = .error .idempotencyConflict ∧
    (serve (step limits) (accepted { reply with replyToID := some " " })
      (.saveMessageEnvelope 4 "" true { reply with replyToID := some " " })).answer = .error .idempotencyConflict ∧
    (∃ m ∈ fileSent.messages, m.id = "sent") ∧
    (serve (step limits) (exec (step limits) fileSent [.deleteAttachment "file" alice])
      (.saveMessageEnvelope 5 "" true withFile)).answer = .error .invalidInput := by
  decide +kernel

end Veritra.Storage
