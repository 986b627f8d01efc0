import Veritra.Proofs.Storage.Effect

/-! # How message rows age

A message row keeps its id, its conversation and its expiry, and stays deleted once it is. Rows come
into being only when a message is saved, under the id that the save chose.
-/

namespace Veritra.Storage

open Relational Machine

/-- The same message after other messages it refers to are gone. -/
def MessageEnvelope.Relinked (m m' : MessageEnvelope) : Prop :=
  ∃ replyToID threadRootID, m' = { m with replyToID, threadRootID }

/-- A later row of the same message. -/
structure MessageEnvelope.Later (m m' : MessageEnvelope) : Prop where
  id : m'.id = m.id
  conversation : m'.conversationID = m.conversationID
  createdAt : m'.createdAt = m.createdAt
  expiresAt : m'.expiresAt = m.expiresAt
  deleted : m.deletedAt ≠ none → m'.deletedAt ≠ none

namespace MessageEnvelope.Later

variable {m m' m'' : MessageEnvelope}

theorem refl (m : MessageEnvelope) : m.Later m := ⟨rfl, rfl, rfl, rfl, fun deleted => deleted⟩

theorem trans (first : m.Later m') (second : m'.Later m'') : m.Later m'' :=
  ⟨second.id.trans first.id, second.conversation.trans first.conversation,
    second.createdAt.trans first.createdAt, second.expiresAt.trans first.expiresAt,
    fun deleted => second.deleted (first.deleted deleted)⟩

theorem of_relinked (relinked : m.Relinked m') : m.Later m' := by
  obtain ⟨_, _, rfl⟩ := relinked
  exact ⟨rfl, rfl, rfl, rfl, fun deleted => deleted⟩

end MessageEnvelope.Later

/-- Every row of `s'` is a later row of one of `s`, or has an id that `Saved` allows. -/
def RowsAge (Saved : MessageID → Prop) (s s' : Store) : Prop :=
  ∀ m' ∈ s'.messages, (∃ m ∈ s.messages, m.Later m') ∨ Saved m'.id

namespace RowsAge

variable {Saved : MessageID → Prop} {s s' s'' : Store}

theorem of_eq (same : s'.messages = s.messages) : RowsAge Saved s s' := by
  intro m' mem
  exact .inl ⟨m', same ▸ mem, .refl m'⟩

theorem trans (first : RowsAge Saved s s') (second : RowsAge Saved s' s'') : RowsAge Saved s s'' := by
  intro m'' member''
  rcases second m'' member'' with ⟨m', member', later'⟩ | saved
  · rcases first m' member' with ⟨m, mem, later⟩ | saved
    · exact .inl ⟨m, mem, later.trans later'⟩
    · exact .inr (later'.id ▸ saved)
  · exact .inr saved

end RowsAge

namespace Store

variable {newID messageID : MessageID} {withSyncEvent : Bool} {request m : MessageEnvelope} {middle : Store}
  {accountID : AccountID} {cryptoProtocol : String} {cryptoMetadata : CryptoMetadata}
  {eventType : Option EventType} {answer : MessageEnvelope × EventID} {s s' : Store} {now : Time}
  {Saved : MessageID → Prop} {p : MessageEnvelope → Prop}

theorem mem_deleteMessages [DecidablePred p] {m' : MessageEnvelope}
    (mem : m' ∈ (s.deleteMessages p).messages) : ∃ m ∈ s.messages, ¬ p m ∧ m.Relinked m' := by
  -- The reply references are cleared first, then the thread references.
  simp only [deleteMessages] at mem
  obtain ⟨middle, inMiddle, thread⟩ := IndexedTable.exists_of_mem_update mem
  obtain ⟨m, inRest, reply⟩ := IndexedTable.exists_of_mem_update inMiddle
  obtain ⟨old, kept⟩ := IndexedTable.mem_delete.mp inRest
  refine ⟨m, old, kept, ?_⟩
  rcases reply with rfl | rfl
  all_goals
    rcases thread with rfl | rfl
    all_goals exact ⟨_, _, rfl⟩

theorem exists_mem_deleteMessages [DecidablePred p]
    (mem : m ∈ s.messages) (kept : ¬ p m) : ∃ m' ∈ (s.deleteMessages p).messages, m.Relinked m' := by
  have stays : m ∈ s.messages.delete p := IndexedTable.mem_delete.mpr ⟨mem, kept⟩
  obtain ⟨middle, inMiddle, reply⟩ := IndexedTable.exists_mem_update stays
    (fun m => ∃ gone ∈ s.messages, p gone ∧ m.replyToID = some gone.id)
    (fun m => { m with replyToID := none }) (fun _ => rfl) (fun _ => rfl)
  obtain ⟨m', inLast, thread⟩ := IndexedTable.exists_mem_update inMiddle
    (fun m => ∃ gone ∈ s.messages, p gone ∧ m.threadRootID = some gone.id)
    (fun m => { m with threadRootID := none }) (fun _ => rfl) (fun _ => rfl)
  refine ⟨m', inLast, ?_⟩
  rcases reply with rfl | rfl
  all_goals
    rcases thread with rfl | rfl
    all_goals exact ⟨_, _, rfl⟩

theorem deleteMessages_age (s : Store) (p : MessageEnvelope → Prop)
    [DecidablePred p] : RowsAge Saved s (s.deleteMessages p) := by
  intro m' mem
  obtain ⟨m, old, -, relinked⟩ := mem_deleteMessages mem
  exact .inl ⟨m, old, .of_relinked relinked⟩

theorem deleteExpiredMessageByIdempotency_age (s : Store)
    (deviceID : DeviceID) (idempotencyKey : String) (now : Time) :
    RowsAge Saved s (s.deleteExpiredMessageByIdempotency deviceID idempotencyKey now) := by
  unfold deleteExpiredMessageByIdempotency
  split
  · exact .of_eq rfl
  · split
    · exact .of_eq rfl
    · refine .trans ?_ (deleteMessages_age _ _)
      exact .of_eq rfl

@[simp] theorem insertMessageEvent_messages (s : Store) (eventType : Option EventType)
    (envelope : MessageEnvelope) (now : Time) :
    (s.insertMessageEvent eventType envelope now).2.messages = s.messages := by
  cases eventType <;> rfl

theorem MessageSent.mem_messages {sent : MessageEnvelope}
    (outcome : MessageSent s now newID withSyncEvent request sent middle s') (m : MessageEnvelope) :
    m ∈ s'.messages ↔ m ∈ s.messages ∨ m = sent.stored := by
  rw [outcome.after, insertMessageEvent_messages]
  exact IndexedTable.mem_of_insert? outcome.inserted m

theorem saveMessageEnvelope_age {saved : SavedMessage}
    (ok : s.saveMessageEnvelope now newID withSyncEvent request = .ok (saved, s')) :
    RowsAge (· = if request.id = "" then newID else request.id) s s' := by
  obtain ⟨cleared, rfl, outcome⟩ := saveMessageEnvelope_ok ok
  refine .trans (s.deleteExpiredMessageByIdempotency_age request.senderDeviceID
    request.idempotencyKey now) ?_
  rcases outcome with rfl | ⟨asked, sent, middle, sameID, -, outcome⟩
  · exact .of_eq rfl
  · intro m' mem
    rcases (outcome.mem_messages m').mp mem with old | rfl
    · exact .inl ⟨m', old, .refl m'⟩
    · exact .inr (sameID ▸ outcome.id)

theorem MessageMutated.age {old new : MessageEnvelope}
    (mutated : MessageMutated s messageID accountID now old new middle) (later : old.Later new) :
    RowsAge Saved s middle := by
  intro m' mem
  rcases (mutated.rows m').mp mem with ⟨kept, -⟩ | rfl
  · exact .inl ⟨m', kept, .refl m'⟩
  · exact .inl ⟨old, mutated.member, later⟩

theorem updateMessageEnvelope_mutates {ciphertext : Bytes}
    (ok : s.updateMessageEnvelope now messageID accountID ciphertext cryptoProtocol
      cryptoMetadata eventType = .ok (answer, s')) :
    ∃ old new middle, MessageMutated s messageID accountID now old new middle ∧ old.Later new ∧
      s'.messages = middle.messages := by
  obtain ⟨old, new, middle, mutated, version, same, rfl⟩ := updateMessageEnvelope_ok ok
  refine ⟨old, new, middle, mutated, ?_, insertMessageEvent_messages _ _ _ _⟩
  exact ⟨version.id, version.conversation, version.createdAt, version.expiresAt, fun deleted => same ▸ deleted⟩

theorem releaseMessageAttachments_frame (s : Store) (messageID : MessageID) :
    (s.releaseMessageAttachments messageID).messages = s.messages ∧
      (s.releaseMessageAttachments messageID).events = s.events := by
  simp only [releaseMessageAttachments]
  obtain ⟨_, frame⟩ := enqueueEach_frame _ _
  rw [frame]
  exact ⟨rfl, rfl⟩

theorem deleteMessageEnvelope_mutates {markerCiphertext : Bytes}
    (ok : s.deleteMessageEnvelope now messageID accountID markerCiphertext cryptoProtocol
      cryptoMetadata eventType = .ok (answer, s')) :
    ∃ old new middle, MessageMutated s messageID accountID now old new middle ∧ old.Later new ∧
      new.deletedAt ≠ none ∧ s'.messages = middle.messages := by
  obtain ⟨old, new, middle, _, mutated, version, gone, rfl, rfl⟩ := deleteMessageEnvelope_ok ok
  have marked : new.deletedAt ≠ none := gone ▸ Option.some_ne_none now
  refine ⟨old, new, middle, mutated, ?_, marked, ?_⟩
  · exact ⟨version.id, version.conversation, version.createdAt, version.expiresAt, fun _ => marked⟩
  · rw [insertMessageEvent_messages]
    exact (releaseMessageAttachments_frame middle messageID).1

theorem redactOrphanedMessageEvents_messages (s : Store) :
    s.redactOrphanedMessageEvents.2.messages = s.messages := by
  unfold redactOrphanedMessageEvents
  split <;> rfl

/-- What a sweep does to the rows: its redactions do not touch them. -/
theorem pruneExpiredContent_messages (s : Store) (now : Time) : (s.pruneExpiredContent now).2.messages =
    (s.deleteMessages fun m => ∃ x ∈ s.expiredMessages now, x.id = m.id).messages := by
  obtain ⟨start, _, messages, -, rfl, rows, -⟩ := s.pruneExpiredContent_ok now
  rw [rows]
  simp only [deleteMessages, redactOrphanedMessageEvents_messages, redactEvents, messages]

theorem mem_expiredMessages {x : MessageEnvelope} (expired : x ∈ s.expiredMessages now) :
    x ∈ s.messages ∧ ¬ x.unexpired now := by
  have sorted := List.mem_of_mem_take expired
  obtain ⟨row, condition⟩ := List.mem_filter.mp ((List.mem_insertionSort _).mp sorted)
  exact ⟨row, of_decide_eq_true condition⟩

theorem not_expiring (stored : m ∈ s.messages) (unexpired : m.unexpired now) :
    ¬ ∃ x ∈ s.expiredMessages now, x.id = m.id := by
  rintro ⟨x, expired, same⟩
  obtain ⟨known, past⟩ := mem_expiredMessages expired
  exact past (Table.eq_of_key known stored same ▸ unexpired)

end Store

/-- Only the calls on messages touch their rows. -/
theorem messages_of_step {limits : Limits} {s s' : Store} {call : Call} {given : Answer}
    (ok : step limits s call = .ok (given, s')) (other : call.isMessage = false) :
    s'.messages = s.messages := by
  have effect := effect_of_step ok
  by_cases isPrune : call.isPrune = false
  · exact (effect.keepsMessages other isPrune).messages
  · obtain ⟨_, _, _, -, pruned⟩ := effect.of_isPrune isPrune
    obtain ⟨_, _, _, frame⟩ := (Store.pruneSyncEventsBatch_ok pruned).frame
    rw [frame]

/-- The call may delete the row of the message: a sweep after its expiry, or the reuse of its key. -/
def Call.expires (m : MessageEnvelope) : Call → Prop
  | pruneExpiredContent now => ¬ m.unexpired now
  | saveMessageEnvelope now _ _ envelope => ¬ m.unexpired now ∧ m.sendKey = envelope.sendKey
  | _ => False

/-- The id under which the call may store a new message. -/
def Call.savedID : Call → Option MessageID
  | saveMessageEnvelope _ newID _ envelope => some (if envelope.id = "" then newID else envelope.id)
  | _ => none

/-- Rows come into being only at the id that a save chose. -/
theorem rowsAge_of_step {limits : Limits} {s s' : Store} {call : Call} {given : Answer}
    (ok : step limits s call = .ok (given, s')) :
    RowsAge (fun id => call.savedID = some id) s s' := by
  by_cases isMessage : call.isMessage = false
  · exact .of_eq (messages_of_step ok isMessage)
  · cases call <;> try exact absurd rfl isMessage
    all_goals simp only [step] at ok
    case saveMessageEnvelope now newID withSyncEvent envelope =>
      obtain ⟨_, ok, -⟩ := answer_eq_ok ok
      intro m' mem
      exact (Store.saveMessageEnvelope_age ok m' mem).imp_right fun same => congrArg some same.symm
    case updateMessageEnvelope =>
      obtain ⟨_, ok, -⟩ := answer_eq_ok ok
      obtain ⟨_, _, _, mutated, later, rows⟩ := Store.updateMessageEnvelope_mutates ok
      exact .trans (mutated.age later) (.of_eq rows)
    case deleteMessageEnvelope =>
      obtain ⟨_, ok, -⟩ := answer_eq_ok ok
      obtain ⟨_, _, _, mutated, later, -, rows⟩ := Store.deleteMessageEnvelope_mutates ok
      exact .trans (mutated.age later) (.of_eq rows)
    case pruneExpiredContent now =>
      cases ok
      exact .trans (s.deleteMessages_age _) (.of_eq (s.pruneExpiredContent_messages now))

end Veritra.Storage
