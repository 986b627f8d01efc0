import Veritra.Proofs.Storage.MessageRows
import Veritra.Soundness.CommitOrder

/-! # No deleted ciphertext survives in the log

Each version of a message is copied into a sync event, and deleting or expiring the message redacts
the copies. The three redaction queries select by conversation, by event type and, for a deletion,
by the id of the created event; the invariant says what each of them needs to find every copy. A
redacted event never gets its envelope back, so what a deletion erased stays erased.
-/

namespace Veritra.Storage

open Relational Machine

variable {e : SyncEvent} {m m' : MessageEnvelope} {eventType : Option EventType} {now : Time}
  {accountID : AccountID} {cryptoProtocol : String} {cryptoMetadata : CryptoMetadata}
  {answer : MessageEnvelope × EventID} {call : Call} {given : Answer} {history : List Entry}
  {s s' : Store} {p : SyncEvent → Prop} {markerCiphertext : Bytes}

def SyncEvent.carries (e : SyncEvent) : Prop := e.payload.envelope ≠ none
  deriving Decidable

/-- The row that a copy in the log refers to. -/
structure CopyOf (e : SyncEvent) (m : MessageEnvelope) : Prop where
  named : e.payload.messageID = some m.id
  conversation : e.conversationID = some m.conversationID
  marker : m.deletedAt ≠ none ↔ e.eventType = .messageEnvelopeDeleted

theorem CopyOf.later (copy : CopyOf e m) (id : m'.id = m.id)
    (conversation : m'.conversationID = m.conversationID) (deletedAt : m'.deletedAt = m.deletedAt) :
    CopyOf e m' := by
  refine ⟨?_, ?_, ?_⟩
  · rw [id]
    exact copy.named
  · rw [conversation]
    exact copy.conversation
  · rw [deletedAt]
    exact copy.marker

/-- Every copy in the log refers to a row, is a marker exactly when the row is deleted, and does not
come before a created event of its message. -/
structure CopiesSound (s : Store) : Prop where
  type : ∀ e ∈ s.events, e.carries → e.eventType.isMessageEnvelope
  row : ∀ e ∈ s.events, e.carries → ∃ m ∈ s.messages, CopyOf e m
  first : ∀ e ∈ s.events, e.carries → ∀ created ∈ s.events,
    created.eventType = .messageEnvelopeCreated → created.payload.messageID = e.payload.messageID →
    created.id ≤ e.id

namespace SyncEvent.Rewritten

variable {e' : SyncEvent}

theorem messageID (rewritten : e.Rewritten e') : e'.payload.messageID = e.payload.messageID := by
  rcases rewritten with rfl | ⟨-, rfl⟩ <;> rfl

/-- What still carries an envelope was not touched. -/
theorem eq_of_carries (rewritten : e.Rewritten e') (carries : e'.carries) : e' = e := by
  rcases rewritten with same | ⟨-, rfl⟩
  · exact same
  · exact absurd rfl carries

end SyncEvent.Rewritten

namespace CopiesSound

section

variable (sound : CopiesSound s)

include sound

/-- Events were redacted or deleted, and the rows of the copies that remain are still there. -/
theorem of_rewritten (old : ∀ e' ∈ s'.events, ∃ e ∈ s.events, e.Rewritten e')
    (rows : ∀ e ∈ s.events, e ∈ s'.events → e.carries → ∀ m ∈ s.messages, CopyOf e m →
      ∃ m' ∈ s'.messages, CopyOf e m') : CopiesSound s' where
  type e' mem carries := by
    obtain ⟨e, before, rewritten⟩ := old e' mem
    obtain rfl := rewritten.eq_of_carries carries
    exact sound.type _ before carries
  row e' mem carries := by
    obtain ⟨e, before, rewritten⟩ := old e' mem
    obtain rfl := rewritten.eq_of_carries carries
    obtain ⟨m, stored, copy⟩ := sound.row _ before carries
    exact rows _ before mem carries m stored copy
  first e' mem carries created' createdMember type named := by
    obtain ⟨e, before, rewritten⟩ := old e' mem
    obtain ⟨created, createdBefore, createdRewritten⟩ := old created' createdMember
    obtain rfl := rewritten.eq_of_carries carries
    rw [createdRewritten.id]
    refine sound.first _ before carries created createdBefore ?_ ?_
    · exact createdRewritten.eventType ▸ type
    · exact createdRewritten.messageID ▸ named

/-- Events without an envelope were appended. -/
theorem keeps (keeps : KeepsMessages s s') : CopiesSound s' := by
  have before : ∀ e ∈ s'.events, e.eventType.isMessageEnvelope ∨ e.carries → e ∈ s.events := by
    intro e mem either
    refine (keeps.grows.fresh e mem).resolve_right ?_
    rintro ⟨-, type, envelope⟩
    rcases either with isMessage | carries
    · rw [type] at isMessage
      cases isMessage
    · exact carries envelope
  refine ⟨fun e mem carries => ?_, fun e mem carries => ?_, fun e mem carries created inLog type => ?_⟩
  · exact sound.type e (before e mem (.inr carries)) carries
  · rw [keeps.messages]
    exact sound.row e (before e mem (.inr carries)) carries
  · refine sound.first e (before e mem (.inr carries)) carries created (before created inLog (.inl ?_)) type
    rw [type]
    rfl

theorem add (events : s'.events = s.events)
    (rows : ∀ m ∈ s.messages, m ∈ s'.messages) : CopiesSound s' := by
  refine sound.of_rewritten (fun e mem => ⟨e, events ▸ mem, .refl e⟩) ?_
  intro e _ _ _ m stored copy
  exact ⟨m, rows m stored, copy⟩

/-- The event of a new version is appended. A created event needs that no copy was there. -/
theorem insertMessageEvent {envelope row : MessageEnvelope}
    (stored : row ∈ s.messages) (id : row.id = envelope.id)
    (conversation : row.conversationID = envelope.conversationID)
    (type : ∀ type ∈ eventType, type.isMessageEnvelope ∧
      (row.deletedAt ≠ none ↔ type = .messageEnvelopeDeleted) ∧
      (type = .messageEnvelopeCreated → ∀ e ∈ s.events, e.carries → e.payload.messageID ≠ some envelope.id)) :
    CopiesSound (s.insertMessageEvent eventType envelope now).2 := by
  cases eventType with
  | none => exact sound
  | some chosen =>
    obtain ⟨isMessage, marker, alone⟩ := type chosen rfl
    refine ⟨fun e mem carries => ?_, fun e mem carries => ?_, ?_⟩
    · rcases Log.mem_append.mp mem with old | rfl
      · exact sound.type e old carries
      · exact isMessage
    · rcases Log.mem_append.mp mem with old | rfl
      · exact sound.row e old carries
      · refine ⟨row, stored, ?_, ?_, marker⟩
        · rw [id]
          rfl
        · rw [conversation]
    · intro e mem carries created inLog createdType named
      rcases Log.mem_append.mp mem with old | rfl
      · rcases Log.mem_append.mp inLog with createdOld | rfl
        · exact sound.first e old carries created createdOld createdType named
        · exact absurd named.symm (alone createdType e old carries)
      · rcases Log.mem_append.mp inLog with createdOld | rfl
        · exact Nat.le_succ_of_le (s.events.bounded created createdOld)
        · exact Nat.le_refl _

end

end CopiesSound

namespace Store

variable {e' : SyncEvent}

theorem rewritten_of_redactEvents [DecidablePred p]
    (messages : ∀ e, p e → e.eventType.isMessageEnvelope) (mem : e' ∈ (s.redactEvents p).events) : ∃ e ∈ s.events, e.Rewritten e' := by
  simp only [redactEvents] at mem
  rcases Log.mem_update.mp mem with ⟨old, -⟩ | ⟨e, old, hit, rfl⟩
  · exact ⟨e', old, .refl e'⟩
  · exact ⟨e, old, .inr ⟨messages e hit, rfl⟩⟩

theorem not_selected_of_carries [DecidablePred p]
    (mem : e ∈ (s.redactEvents p).events) (carries : e.carries) : ¬ p e := by
  simp only [redactEvents] at mem
  rcases Log.mem_update.mp mem with ⟨-, miss⟩ | ⟨_, -, -, rfl⟩
  · exact miss
  · exact absurd rfl carries

theorem rewritten_of_redactOrphaned (mem : e' ∈ s.redactOrphanedMessageEvents.2.events) :
    ∃ e ∈ s.events, e.Rewritten e' := by
  unfold redactOrphanedMessageEvents at mem
  split at mem
  · exact ⟨e', mem, .refl e'⟩
  · exact rewritten_of_redactEvents (fun _ hit => hit.2.2.1) mem

/-- The created event that a deletion starts from is not after any copy of the message. -/
theorem messageCreatedEventID_le {conversationID : ConversationID} {messageID : MessageID}
    {createdAt : Time} {bound : ℕ}
    (first : ∀ created ∈ s.events, created.eventType = .messageEnvelopeCreated →
      created.payload.messageID = some messageID → created.id ≤ bound) :
    s.messageCreatedEventID conversationID messageID createdAt ≤ bound := by
  unfold messageCreatedEventID
  cases found : (List.map _ _).getLast? with
  | none => exact Nat.zero_le _
  | some id =>
    obtain ⟨created, selected, rfl⟩ := List.mem_map.mp (List.mem_of_mem_getLast? found)
    obtain ⟨mem, holds⟩ := List.mem_filter.mp selected
    obtain ⟨-, type, -, named⟩ := of_decide_eq_true holds
    exact first created mem type named

end Store

namespace CopiesSound

variable {newID : MessageID} {withSyncEvent : Bool} {request : MessageEnvelope}

section

variable (sound : CopiesSound s)
include sound

/-- Rows are deleted after the redaction of all their copies. -/
theorem erase [DecidablePred p]
    {q : MessageEnvelope → Prop} [DecidablePred q] (messages : ∀ e, p e → e.eventType.isMessageEnvelope)
    (covers : ∀ e ∈ s.events, e.carries → ∀ m ∈ s.messages, q m → CopyOf e m → p e) :
    CopiesSound ((s.redactEvents p).deleteMessages q) := by
  refine sound.of_rewritten (fun e' mem => Store.rewritten_of_redactEvents messages mem) ?_
  intro e before after carries m stored copy
  have kept : ¬ q m := fun hit =>
    Store.not_selected_of_carries after carries (covers e before carries m stored hit copy)
  obtain ⟨m', stored', _, _, rfl⟩ := Store.exists_mem_deleteMessages (s := s.redactEvents p) stored kept
  exact ⟨_, stored', copy.later rfl rfl rfl⟩

theorem cleared (deviceID : DeviceID) (idempotencyKey : String) (now : Time) :
    CopiesSound (s.deleteExpiredMessageByIdempotency deviceID idempotencyKey now) := by
  unfold Store.deleteExpiredMessageByIdempotency
  split
  · exact sound
  · next message found =>
    split
    · exact sound
    · refine sound.erase (fun e hit => hit.2.1) fun e before carries m stored same copy => ?_
      obtain rfl := Table.eq_of_key stored (IndexedTable.findIndex?_eq_some.mp found).1 same
      exact ⟨copy.conversation, sound.type e before carries, copy.named, carries⟩

/-- A message under a fresh id. -/
theorem sent {sent : MessageEnvelope} {middle : Store}
    (outcome : Store.MessageSent s now newID withSyncEvent request sent middle s') :
    CopiesSound s' := by
  have rows := IndexedTable.mem_of_insert? outcome.inserted
  have added : CopiesSound middle := sound.add outcome.events fun m stored => (rows m).mpr (.inl stored)
  rw [outcome.after]
  refine added.insertMessageEvent ((rows sent.stored).mpr (.inr rfl)) rfl rfl fun type chosen => ?_
  split at chosen
  · cases chosen
    refine ⟨rfl, ⟨fun deleted => absurd rfl deleted, nofun⟩, fun _ e mem carries named => ?_⟩
    obtain ⟨m, stored, copy⟩ := sound.row e (outcome.events ▸ mem) carries
    refine IndexedTable.free_of_insert? outcome.inserted m stored ?_
    exact Option.some.inj (copy.named.symm.trans named)
  · cases chosen

theorem saved {saved : SavedMessage}
    (ok : s.saveMessageEnvelope now newID withSyncEvent request = .ok (saved, s')) :
    CopiesSound s' := by
  obtain ⟨cleared, rfl, outcome⟩ := Store.saveMessageEnvelope_ok ok
  have start := sound.cleared request.senderDeviceID request.idempotencyKey now
  rcases outcome with rfl | ⟨_, _, _, -, -, outcome⟩
  · exact start
  · exact start.sent outcome

theorem edited {messageID : MessageID} {ciphertext : Bytes}
    (ok : s.updateMessageEnvelope now messageID accountID ciphertext cryptoProtocol cryptoMetadata
      (if withSyncEvent then some .messageEnvelopeEdited else none) = .ok (answer, s')) :
    CopiesSound s' := by
  obtain ⟨old, new, middle, mutated, version, deletedAt, rfl⟩ := Store.updateMessageEnvelope_ok ok
  have rows := mutated.rows
  obtain ⟨_, rfl⟩ := mutated.frame
  have live : new.deletedAt = none := deletedAt.trans mutated.may.2.2.1
  refine insertMessageEvent ?_ ((rows new).mpr (.inr rfl)) rfl rfl fun type chosen => ?_
  · refine sound.of_rewritten (fun e mem => ⟨e, mem, .refl e⟩) ?_
    intro e _ _ _ m stored copy
    by_cases own : m.id = messageID
    · obtain rfl := Table.eq_of_key stored mutated.member (own.trans mutated.may.1.symm)
      exact ⟨new, (rows new).mpr (.inr rfl), copy.later version.id version.conversation deletedAt⟩
    · exact ⟨m, (rows m).mpr (.inl ⟨stored, own⟩), copy⟩
  · split at chosen
    · cases chosen
      exact ⟨rfl, ⟨fun deleted => absurd live deleted, nofun⟩, nofun⟩
    · cases chosen

/-- A copy of a live message is one of those that its deletion redacts. -/
theorem superseded {old new : MessageEnvelope} {released : Store}
    (events : released.events = s.events) (mem : e ∈ s.events) (carries : e.carries)
    (copy : CopyOf e old) (live : old.deletedAt = none) (version : Store.NewVersion old new) :
    released.supersededBy new e := by
  have named : e.payload.messageID = some new.id := by
    rw [version.id]
    exact copy.named
  refine ⟨?_, Store.messageCreatedEventID_le fun created inLog type same => ?_, ?_, named, carries⟩
  · rw [version.conversation]
    exact copy.conversation
  · exact sound.first e mem carries created (events ▸ inLog) type (same.trans named.symm)
  · have isMessage := sound.type e mem carries
    have notMarker : e.eventType ≠ .messageEnvelopeDeleted := fun marker => copy.marker.mpr marker live
    revert isMessage notMarker
    cases e.eventType <;> decide

theorem deleted {messageID : MessageID}
    (ok : s.deleteMessageEnvelope now messageID accountID markerCiphertext cryptoProtocol
      cryptoMetadata (if withSyncEvent then some .messageEnvelopeDeleted else none) = .ok (answer, s')) :
    CopiesSound s' := by
  obtain ⟨old, new, middle, released, mutated, version, gone, released_eq, rfl⟩ :=
    Store.deleteMessageEnvelope_ok ok
  have rows := mutated.rows
  obtain ⟨messages, events⟩ := middle.releaseMessageAttachments_frame messageID
  rw [← released_eq] at messages events
  have middleEvents : middle.events = s.events := by
    obtain ⟨_, rfl⟩ := mutated.frame
    rfl
  rw [middleEvents] at events
  have stored : new ∈ released.messages := by
    rw [messages]
    exact (rows new).mpr (.inr rfl)
  refine insertMessageEvent ?_ stored rfl rfl fun type chosen => ?_
  · refine sound.of_rewritten (fun e' mem => ?_) fun e before after carries m old_stored copy => ?_
    · obtain ⟨e, inLog, rewritten⟩ := Store.rewritten_of_redactEvents
        (fun e hit => e.eventType.isMessageEnvelope_of_isMessageVersion hit.2.2.1) mem
      exact ⟨e, events ▸ inLog, rewritten⟩
    · have other : m.id ≠ messageID := by
        intro own
        obtain rfl := Table.eq_of_key old_stored mutated.member (own.trans mutated.may.1.symm)
        exact Store.not_selected_of_carries after carries
          (sound.superseded events before carries copy mutated.may.2.2.1 version)
      refine ⟨m, ?_, copy⟩
      have kept := (rows m).mpr (.inl ⟨old_stored, other⟩)
      rwa [← messages] at kept
  · split at chosen
    · cases chosen
      refine ⟨rfl, ⟨fun _ => rfl, fun _ => ?_⟩, nofun⟩
      rw [gone]
      exact Option.some_ne_none _
    · cases chosen

theorem swept (now : Time) : CopiesSound (s.pruneExpiredContent now).2 := by
  obtain ⟨start, redacted, -, events, rfl, -, sweptEvents⟩ := s.pruneExpiredContent_ok now
  have isMessage : ∀ e, Store.copiesOneOf (s.expiredMessages now) e → e.eventType.isMessageEnvelope := by
    rintro e ⟨-, _, -, copies⟩
    exact copies.1
  refine sound.of_rewritten (fun e' mem => ?_) fun e before after carries m stored copy => ?_
  · rw [sweptEvents] at mem
    obtain ⟨middle, inMiddle, second⟩ := Store.rewritten_of_redactOrphaned mem
    obtain ⟨e, inLog, first⟩ := Store.rewritten_of_redactEvents isMessage inMiddle
    exact ⟨e, events ▸ inLog, first.trans second⟩
  · rw [sweptEvents] at after
    obtain ⟨middle, inMiddle, rewritten⟩ := Store.rewritten_of_redactOrphaned after
    obtain rfl := rewritten.eq_of_carries carries
    have miss := Store.not_selected_of_carries inMiddle carries
    have kept : ¬ ∃ x ∈ s.expiredMessages now, x.id = m.id := by
      rintro ⟨x, expired, same⟩
      obtain rfl := Table.eq_of_key (Store.mem_expiredMessages expired).1 stored same
      exact miss ⟨⟨x, expired, copy.conversation⟩, x, expired, sound.type _ before carries, copy.named, carries⟩
    obtain ⟨m', stored', _, _, rfl⟩ := Store.exists_mem_deleteMessages
      (p := fun m => ∃ x ∈ s.expiredMessages now, x.id = m.id) stored kept
    rw [Store.pruneExpiredContent_messages]
    exact ⟨_, stored', copy.later rfl rfl rfl⟩

theorem pruned {clock olderThan : Time} {count : ℕ}
    (ok : s.pruneSyncEventsBatch clock olderThan = .ok (count, s')) : CopiesSound s' := by
  have pruned := Store.pruneSyncEventsBatch_ok ok
  have events := pruned.events
  obtain ⟨_, _, _, rfl⟩ := pruned.frame
  refine sound.of_rewritten (fun e mem => ⟨e, ((events e).mp mem).1, .refl e⟩) ?_
  intro e _ _ _ m stored copy
  exact ⟨m, stored, copy⟩

theorem step {limits : Limits} (ok : Storage.step limits s call = .ok (given, s')) : CopiesSound s' := by
  have effect := effect_of_step ok
  by_cases isMessage : call.isMessage = false
  · by_cases isPrune : call.isPrune = false
    · exact sound.keeps (effect.keepsMessages isMessage isPrune)
    · obtain ⟨_, _, _, -, isPruned⟩ := effect.of_isPrune isPrune
      exact sound.pruned isPruned
  · cases call <;> try exact absurd rfl isMessage
    all_goals
      simp only [Storage.step] at ok
      obtain ⟨_, ok, -⟩ := answer_eq_ok ok
    case saveMessageEnvelope => exact sound.saved ok
    case updateMessageEnvelope => exact sound.edited ok
    case deleteMessageEnvelope => exact sound.deleted ok
    case pruneExpiredContent =>
      cases ok
      exact sound.swept _

end

theorem of_run {limits : Limits} (run : ServerRun limits history s) : CopiesSound s := by
  refine run.preserves CopiesSound ?_ fun _ _ _ _ _ sound ok => sound.step ok
  exact ⟨fun e mem => absurd mem (Log.not_mem_empty e),
    fun e mem => absurd mem (Log.not_mem_empty e), fun e mem => absurd mem (Log.not_mem_empty e)⟩

end CopiesSound

/-- The call deleted the message, or swept it because it had expired. -/
inductive Removes (messageID : MessageID) (entry : Entry) : Prop
  | deleted {now : Time} {accountID : AccountID} {markerCiphertext : Bytes} {cryptoProtocol : String}
      {cryptoMetadata : CryptoMetadata} {withSyncEvent : Bool} {given : Answer}
      (call : entry.call = .deleteMessageEnvelope now messageID accountID markerCiphertext cryptoProtocol
        cryptoMetadata withSyncEvent) (answered : entry.answer = .ok given)
  | swept {now : Time} {m : MessageEnvelope} {given : Answer} (call : entry.call = .pruneExpiredContent now)
      (answered : entry.answer = .ok given) (expired : m ∈ entry.before.expiredMessages now)
      (named : m.id = messageID)

/-- No event up to the id carries a copy of the message. -/
def Erased (messageID : MessageID) (last : EventID) (s : Store) : Prop :=
  ∀ e ∈ s.events, e.id ≤ last → e.payload.messageID = some messageID → ¬ e.carries

/-- What still carries an envelope after a call carried it before, or was appended. -/
theorem carried_of_step {limits : Limits} (ok : step limits s call = .ok (given, s'))
    (mem : e ∈ s'.events) (carries : e.carries) : e ∈ s.events ∨ s.events.last < e.id := by
  have effect := effect_of_step ok
  by_cases isPrune : call.isPrune = false
  · obtain ⟨-, revises⟩ := effect.revises isPrune
    rcases revises.fresh e mem with ⟨old, before, rewritten⟩ | ⟨above, -⟩
    · exact .inl (rewritten.eq_of_carries carries ▸ before)
    · exact .inr above
  · obtain ⟨_, _, _, -, pruned⟩ := effect.of_isPrune isPrune
    exact .inl (((Store.pruneSyncEventsBatch_ok pruned).events e).mp mem).1

theorem Erased.step {limits : Limits} {messageID : MessageID} {last : EventID}
    (erased : Erased messageID last s) (given_out : last ≤ s.events.last)
    (ok : step limits s call = .ok (given, s')) : Erased messageID last s' := by
  intro e mem old named carries
  rcases carried_of_step ok mem carries with before | above
  · exact erased e before old named carries
  · exact absurd (Nat.le_trans old given_out) (Nat.not_le.mpr above)

/-- A deletion turns the live row into a tombstone. -/
theorem Store.deleteMessageEnvelope_tombstone {messageID : MessageID}
    (ok : s.deleteMessageEnvelope now messageID accountID markerCiphertext cryptoProtocol
      cryptoMetadata eventType = .ok (answer, s')) :
    (∀ m ∈ s.messages, m.id = messageID → m.deletedAt = none) ∧
      ∀ m ∈ s'.messages, m.id = messageID → m.deletedAt ≠ none := by
  obtain ⟨_, _, _, mutated, -, marked, rows⟩ := deleteMessageEnvelope_mutates ok
  constructor
  · intro m stored own
    rw [Table.eq_of_key stored mutated.member (own.trans mutated.may.1.symm)]
    exact mutated.may.2.2.1
  · intro m stored own
    rw [rows] at stored
    rcases (mutated.rows m).mp stored with ⟨-, other⟩ | rfl
    · exact absurd own other
    · exact marked

/-- A sweep leaves no row of the messages it takes. -/
theorem Store.pruneExpiredContent_gone (expired : m ∈ s.expiredMessages now)
    (stored : m' ∈ (s.pruneExpiredContent now).2.messages) : m'.id ≠ m.id := by
  rw [pruneExpiredContent_messages] at stored
  obtain ⟨old, -, kept, _, _, rfl⟩ := mem_deleteMessages stored
  exact fun same => kept ⟨m, expired, same.symm⟩

/-- When a message is taken away, its copies in the log are redacted with it. -/
theorem erased_of_removes {limits : Limits} {messageID : MessageID} {outcome : Except StoreError Answer}
    (sound : CopiesSound s) (ok : step limits s call = .ok (given, s'))
    (removes : Removes messageID ⟨s, call, outcome, s'⟩) : Erased messageID s.events.last s' := by
  intro e mem old named carries
  have before : e ∈ s.events := (carried_of_step ok mem carries).resolve_right (Nat.not_lt.mpr old)
  obtain ⟨m, stored, copy⟩ := sound.row e before carries
  obtain ⟨m', stored', copy'⟩ := (sound.step ok).row e mem carries
  have own : m.id = messageID := Option.some.inj (copy.named.symm.trans named)
  have own' : m'.id = messageID := Option.some.inj (copy'.named.symm.trans named)
  cases removes with
  | deleted isDelete =>
    cases isDelete
    simp only [step] at ok
    obtain ⟨_, ok, -⟩ := answer_eq_ok ok
    obtain ⟨live, tombstone⟩ := Store.deleteMessageEnvelope_tombstone ok
    -- The copy would be a marker now, and it was not one before.
    have marker := copy'.marker.mp (tombstone m' stored' own')
    exact copy.marker.mpr marker (live m stored own)
  | swept isSweep _ expired isNamed =>
    cases isSweep
    simp only [step] at ok
    cases ok
    exact Store.pruneExpiredContent_gone expired stored' (own'.trans isNamed.symm)

/-- What a call erased stays erased. -/
theorem erased_since {limits : Limits} (run : ServerRun limits history s) {messageID : MessageID} {entry : Entry}
    (mem : entry ∈ history) (removes : Removes messageID entry) :
    Erased messageID entry.before.events.last s := by
  obtain ⟨earlier, later, rfl⟩ := List.append_of_mem mem
  refine (run.after_entry.preserves (fun s => entry.before.events.last ≤ s.events.last ∧
    Erased messageID entry.before.events.last s) ?_ ?_).2
  · rcases run.committed_or_refused mem with ⟨given, answered, ok⟩ | ⟨_, refused, -⟩
    · exact ⟨(events_of_step ok).last_le, erased_of_removes (.of_run run.at_entry.1) ok removes⟩
    · cases removes with
      | deleted _ answered | swept _ answered => cases refused.symm.trans answered
  · rintro s call given s' - ⟨givenOut, erased⟩ ok
    exact ⟨givenOut.trans (events_of_step ok).last_le, erased.step givenOut ok⟩

/-- In every state reached, each event that still carries an envelope refers to a message row, which is
not deleted unless the event is a deleted marker; and no event from before a deletion or a sweep
carries any ciphertext of the message that the call took away. -/
theorem no_deleted_ciphertext_retained {limits : Limits} {history : List Entry} {s : Store}
    (run : ServerRun limits history s) :
    (∀ e ∈ s.events, e.payload.envelope ≠ none → ∃ m ∈ s.messages, e.payload.messageID = some m.id ∧
      (e.eventType ≠ .messageEnvelopeDeleted → m.deletedAt = none)) ∧
    ∀ entry ∈ history, ∀ messageID, Removes messageID entry →
      ∀ e ∈ s.events, e.id ≤ entry.before.events.last → e.payload.messageID = some messageID →
        e.payload.envelope = none := by
  refine ⟨fun e member carries => ?_, fun entry member messageID removes e retained old named => ?_⟩
  · obtain ⟨m, stored, copy⟩ := (CopiesSound.of_run run).row e member carries
    exact ⟨m, stored, copy.named, fun notMarker => not_not.mp fun deleted =>
      notMarker (copy.marker.mp deleted)⟩
  · exact not_not.mp (erased_since run member removes e retained old named)

namespace Example

/-- Alice sends a message to the room. -/
def aliceSends : Call :=
  .saveMessageEnvelope 2 "msg" true
    { id := "", conversationID := "room", senderAccountID := alice, senderDeviceID := "alice-phone",
      idempotencyKey := "hello", cryptoProtocol := "mls", ciphertext := [7], cryptoMetadata := ⟨"", none⟩,
      attachmentRefs := ⟨"", none⟩, replyToID := none, threadRootID := none, createdAt := 0,
      editedAt := none, deletedAt := none, expiresAt := none }

def aliceDeletes : Call := .deleteMessageEnvelope 3 "msg" alice [0] "mls" ⟨"", none⟩ true

end Example

open Example in
/-- The created event is still in the log after the deletion, and carries no envelope. -/
theorem no_deleted_ciphertext_retained_msg :
    ∃ history s, ServerRun limits history s ∧ ∃ e ∈ s.events, e.eventType = .messageEnvelopeCreated ∧
      e.payload.messageID = some "msg" ∧ e.payload.envelope = none := by
  have run := (run_exec (step limits) Store.init (room ++ [aliceSends])).call aliceDeletes trivial
  have accepted : (serve (step limits) (exec (step limits) Store.init (room ++ [aliceSends]))
      aliceDeletes).answer.isOk := by decide +kernel
  obtain ⟨given, answered⟩ := Served.exists_answer accepted
  have retained : ∃ e ∈ (serve (step limits) (exec (step limits) Store.init (room ++ [aliceSends]))
      aliceDeletes).after.events, e.id ≤ (exec (step limits) Store.init (room ++ [aliceSends])).events.last ∧
      e.payload.messageID = some "msg" ∧ e.eventType = .messageEnvelopeCreated := by decide +kernel
  obtain ⟨e, member, old, named, created⟩ := retained
  refine ⟨_, _, run, e, member, created, named, ?_⟩
  exact (no_deleted_ciphertext_retained run).2 _ (List.mem_append_right _ (List.mem_singleton.mpr rfl))
    "msg" (.deleted serve_call answered) e member (by rwa [serve_before]) named

end Veritra.Storage
