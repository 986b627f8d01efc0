import Veritra.Model.Storage.Receipts
import Veritra.Soundness.SendRetry
import Veritra.Proofs.Storage.Requests

/-! # Announced read receipts

The cursor that other members see is compared with the message it names, so it moves only forward
while that message is there. When the message is deleted the cursor is null, and the account's own
cursor takes its place in the comparison. That is enough as long as the own cursor names a later
message. When both messages are gone, any message can be announced next, also one that was sent long
before the last announced one and does not expire.
-/

namespace Veritra.Storage

open Relational Machine

/-- Where a message stands in its conversation: by creation time, then by id. -/
def MessageEnvelope.place (m : MessageEnvelope) : Time ×ₗ MessageID := toLex (m.createdAt, m.id)

/-- The call deletes the message that the account announced last only while the account's own cursor
names a message that stays and was created later, and it deletes the message of the own cursor only
while there is an announced one to compare with. -/
def KeepsCursors (accountID : AccountID) (conversationID : ConversationID) (r : ReceiptStore) :
    ReceiptCall → Prop
  | .base call => ∀ receipt ∈ r.receipts, receipt.key = (accountID, conversationID) →
    (∀ shared ∈ r.store.messages, receipt.sharedMessageID = some shared.id → call.expires shared →
      ∃ own ∈ r.store.messages, receipt.messageID = some own.id ∧ shared.createdAt < own.createdAt ∧
        ¬ call.expires own) ∧
    (receipt.sharedMessageID = none → ∀ own ∈ r.store.messages, receipt.messageID = some own.id → ¬ call.expires own)
  | _ => True

/-- The account marks the message as read, announced or not. -/
def ReceiptCall.Marks (call : ReceiptCall) (accountID : AccountID) (conversationID : ConversationID)
    (messageID : MessageID) : Prop :=
  ∃ now, call = .markRead now conversationID accountID messageID ∨
    call = .markReadPrivate now conversationID accountID messageID ∨
    call = .markReadWithSyncEvent now conversationID accountID messageID

/-- The served call announced that the account has read up to the message. -/
def Announces (entry : ReceiptEntry) (accountID : AccountID) (conversationID : ConversationID)
    (m : MessageEnvelope) : Prop :=
  m ∈ entry.before.store.messages ∧ ∃ now eventID,
    entry.call = .markReadWithSyncEvent now conversationID accountID m.id ∧
      entry.answer = .ok (.event eventID) ∧ eventID ≠ 0

namespace Store

variable {id : MessageID} {limits : Limits} {s s' : Store} {call : Call} {given : Answer}
  {m : MessageEnvelope}

theorem messageCreatedAt_of_mem (stored : m ∈ s.messages) : s.messageCreatedAt m.id = some m.createdAt := by
  have found : s.messages.find? m.id = some m := Table.find?_eq_some.mpr ⟨stored, rfl⟩
  rw [messageCreatedAt, found]
  rfl

theorem stillNamed_of_present (present : (s.messages.find? id).isSome) :
    s.stillNamed (some id) = some id := by
  simp [stillNamed, present]

theorem stillNamed_of_gone (gone : ¬ (s.messages.find? id).isSome) : s.stillNamed (some id) = none := by
  simpa [stillNamed] using gone

theorem find?_isSome_of_mem (stored : m ∈ s.messages) (same : m.id = id) : (s.messages.find? id).isSome :=
  Option.isSome_iff_exists.mpr ⟨m, Table.find?_eq_some.mpr ⟨stored, same⟩⟩

/-- Only an expired message goes. -/
theorem present_of_unexpired (stored : m ∈ s.messages) (stays : ¬ call.expires m) :
    ((call.afterDeletes s).messages.find? m.id).isSome := by
  cases call
  case saveMessageEnvelope now newID withSyncEvent envelope =>
    simp only [Call.afterDeletes, deleteExpiredMessageByIdempotency]
    split
    · exact find?_isSome_of_mem stored rfl
    · next found key =>
      split
      · exact find?_isSome_of_mem stored rfl
      · next expired =>
        obtain ⟨listed, sameKey⟩ := IndexedTable.findIndex?_eq_some.mp key
        have other : ¬ m.id = found.id := by
          intro same
          cases Table.eq_of_key stored listed same
          exact stays ⟨expired, sameKey⟩
        obtain ⟨m', mem, relinked⟩ := exists_mem_deleteMessages (p := (·.id = found.id))
          (s := s.redactEvents fun e => e.conversationID = some found.conversationID ∧ e.copies found.id)
          stored other
        exact find?_isSome_of_mem mem (MessageEnvelope.Later.of_relinked relinked).id
  case pruneExpiredContent now =>
    have kept : ¬ ∃ x ∈ s.expiredMessages now, x.id = m.id := not_expiring stored (not_not.mp stays)
    obtain ⟨m', mem, relinked⟩ := exists_mem_deleteMessages
      (p := fun m => ∃ x ∈ s.expiredMessages now, x.id = m.id) stored kept
    rw [← pruneExpiredContent_messages] at mem
    exact find?_isSome_of_mem mem (MessageEnvelope.Later.of_relinked relinked).id
  all_goals exact find?_isSome_of_mem stored rfl

/-- A row of a store whose rows only age, under the id of an old row, is a later row of it. -/
theorem later_of_age {next : Store} (age : RowsAge (fun _ => False) s next) (stored : m ∈ s.messages)
    (present : (next.messages.find? m.id).isSome) : ∃ m' ∈ next.messages, m.Later m' := by
  obtain ⟨m', found⟩ := Option.isSome_iff_exists.mp present
  obtain ⟨mem, same⟩ := Table.find?_eq_some.mp found
  obtain ⟨old, oldStored, later⟩ := (age m' mem).resolve_right id
  cases Table.eq_of_key oldStored stored (later.id.symm.trans same)
  exact ⟨m', mem, later⟩

theorem MessageMutated.later {middle : Store} {messageID : MessageID} {accountID : AccountID} {now : Time}
    {old new : MessageEnvelope} (mutated : MessageMutated s messageID accountID now old new middle)
    (later : old.Later new) (stored : m ∈ s.messages) : ∃ m' ∈ middle.messages, m.Later m' := by
  by_cases changed : m.id = messageID
  · cases Table.eq_of_key stored mutated.member (changed.trans mutated.may.1.symm)
    exact ⟨new, (mutated.rows new).mpr (.inr rfl), later⟩
  · exact ⟨m, (mutated.rows m).mpr (.inl ⟨stored, changed⟩), .refl m⟩

/-- A message that the call's deletions spared is still there, with its id and its creation time. -/
theorem later_of_present (ok : step limits s call = .ok (given, s')) (stored : m ∈ s.messages)
    (present : ((call.afterDeletes s).messages.find? m.id).isSome) : ∃ m' ∈ s'.messages, m.Later m' := by
  by_cases isMessage : call.isMessage
  · cases call <;> first | exact absurd isMessage Bool.false_ne_true | simp only [step] at ok
    case saveMessageEnvelope now newID withSyncEvent envelope =>
      obtain ⟨_, ok, -⟩ := answer_eq_ok ok
      obtain ⟨cleared, rfl, outcome⟩ := saveMessageEnvelope_ok ok
      obtain ⟨m', mem, later⟩ := later_of_age (s.deleteExpiredMessageByIdempotency_age
        envelope.senderDeviceID envelope.idempotencyKey now) stored present
      rcases outcome with rfl | ⟨_, _, _, -, -, sent⟩
      · exact ⟨m', mem, later⟩
      · exact ⟨m', (sent.mem_messages m').mpr (.inl mem), later⟩
    case updateMessageEnvelope =>
      obtain ⟨_, ok, -⟩ := answer_eq_ok ok
      obtain ⟨_, _, _, mutated, later, rows⟩ := updateMessageEnvelope_mutates ok
      exact rows ▸ mutated.later later stored
    case deleteMessageEnvelope =>
      obtain ⟨_, ok, -⟩ := answer_eq_ok ok
      obtain ⟨_, _, _, mutated, later, -, rows⟩ := deleteMessageEnvelope_mutates ok
      exact rows ▸ mutated.later later stored
    case pruneExpiredContent now =>
      cases ok
      exact later_of_age (.trans (s.deleteMessages_age _) (.of_eq (s.pruneExpiredContent_messages now)))
        stored present
  · have same := messages_of_step ok (Bool.eq_false_iff.mpr isMessage)
    exact ⟨m, same ▸ stored, .refl m⟩

end Store
namespace ReceiptStore

variable {place : Time ×ₗ MessageID} {m : MessageEnvelope} {s : Store} {limits : Limits}
  {r r' : ReceiptStore} {now : Time} {conversationID : ConversationID} {accountID : AccountID}
  {messageID : MessageID} {eventType : Option EventType} {isPrivate : Bool} {eventID : EventID}

/-- A committed read mark: the own cursor was moved, and the shared one if the read is shared. -/
structure ReadMarked (r : ReceiptStore) (now : Time) (conversationID : ConversationID)
    (accountID : AccountID) (messageID : MessageID) (eventID : EventID) (r' : ReceiptStore) : Prop where
  named : ∃ m ∈ r.store.messages, m.id = messageID
  messages : r'.store.messages = r.store.messages
  receipts :
    r'.receipts = (r.moveOwnCursor now conversationID accountID messageID).receipts ∧ eventID = 0 ∨
    r'.receipts = ((r.moveOwnCursor now conversationID accountID messageID).moveSharedCursor conversationID
      accountID messageID).2.receipts ∧
      (eventID ≠ 0 → ((r.moveOwnCursor now conversationID accountID messageID).moveSharedCursor
        conversationID accountID messageID).1)

theorem markRead_ok (ok : r.markRead now conversationID accountID messageID eventType isPrivate =
    .ok (eventID, r')) : ReadMarked r now conversationID accountID messageID eventID r' := by
  have ok := of_require ok
  obtain ⟨⟨m, stored, named, -⟩, ok⟩ := require_ok.mp ok
  dsimp only at ok
  split at ok
  · cases ok
    exact ⟨⟨m, stored, named⟩, rfl, .inl ⟨rfl, rfl⟩⟩
  · cases moved : ((r.moveOwnCursor now conversationID accountID messageID).moveSharedCursor conversationID
        accountID messageID).1
    · rw [moved] at ok
      cases ok
      exact ⟨⟨m, stored, named⟩, rfl, .inr ⟨rfl, fun announced => absurd rfl announced⟩⟩
    · rw [moved] at ok
      cases eventType with
      | none =>
        cases ok
        exact ⟨⟨m, stored, named⟩, rfl, .inr ⟨rfl, fun announced => absurd rfl announced⟩⟩
      | some eventType =>
        cases ok
        exact ⟨⟨m, stored, named⟩, rfl, .inr ⟨rfl, fun _ => moved⟩⟩

/-- The receipt of the reader remembers a place: its shared cursor is there or further on, or it
has none and the own cursor is at a message created later. -/
def Remembers (r : ReceiptStore) (accountID : AccountID) (conversationID : ConversationID)
    (place : Time ×ₗ MessageID) : Prop :=
  ∃ receipt ∈ r.receipts, receipt.key = (accountID, conversationID) ∧
    ((∃ shared ∈ r.store.messages, receipt.sharedMessageID = some shared.id ∧ place ≤ shared.place) ∨
      (receipt.sharedMessageID = none ∧ ∃ own ∈ r.store.messages,
        receipt.messageID = some own.id ∧ (ofLex place).1 < own.createdAt))

theorem place_lt_of_time_lt (earlier : (ofLex place).1 < m.createdAt) : place < m.place :=
  Prod.Lex.lt_iff.mpr (.inl earlier)

/-- A shared cursor that moves on moves to a later place. -/
theorem place_lt_of_sharesTo {receipt : ReadReceipt} {shared : MessageEnvelope}
    (cursor : receipt.sharedMessageID = some shared.id) (shares : s.sharesTo m.id receipt)
    (sharedStored : shared ∈ s.messages) (stored : m ∈ s.messages) : shared.place < m.place := by
  rcases shares with ⟨none, -⟩ | ⟨_, names, -, old, oldAt, new, newAt, forward⟩
  · cases none.symm.trans cursor
  · cases Option.some.inj (cursor.symm.trans names)
    cases Option.some.inj ((Store.messageCreatedAt_of_mem sharedStored).symm.trans oldAt)
    cases Option.some.inj ((Store.messageCreatedAt_of_mem stored).symm.trans newAt)
    exact Prod.Lex.lt_iff.mpr forward

section Cursors

variable {call : Call} {given : Answer} {receipt : ReadReceipt}

/-- The own cursor does not go back in time. -/
theorem advanced_own {own : MessageEnvelope} {time : Time} (stored : own ∈ r.store.messages)
    (cursor : receipt.messageID = some own.id) (later : time < own.createdAt)
    (marked : m ∈ r.store.messages) :
    ∃ own' ∈ r.store.messages, (advanced r.store now m.id receipt).messageID = some own'.id ∧
      time < own'.createdAt := by
  unfold advanced
  split
  · next moves =>
    rw [cursor] at moves
    obtain ⟨-, old, oldAt, new, newAt, forward⟩ := moves
    cases Option.some.inj ((Store.messageCreatedAt_of_mem stored).symm.trans oldAt)
    cases Option.some.inj ((Store.messageCreatedAt_of_mem marked).symm.trans newAt)
    exact ⟨m, marked, rfl, lt_of_lt_of_le later forward⟩
  · exact ⟨own, stored, cursor, later⟩

theorem advanced_shared : (advanced r.store now messageID receipt).sharedMessageID = receipt.sharedMessageID := by
  unfold advanced
  split <;> rfl

theorem mem_moveOwnCursor (mem : receipt ∈ r.receipts) :
    (if receipt.key = (accountID, conversationID) then advanced r.store now messageID receipt else receipt) ∈
      (r.moveOwnCursor now conversationID accountID messageID).receipts := by
  unfold moveOwnCursor
  split
  · next same => exact Table.mem_upsert.mpr (.inr (.inl ⟨receipt, mem, same, rfl⟩))
  · next other => exact Table.mem_upsert.mpr (.inl ⟨mem, other⟩)

theorem mem_moveSharedCursor_iff : receipt ∈ (r.moveSharedCursor conversationID accountID messageID).2.receipts ↔
    (receipt ∈ r.receipts ∧ ¬ (receipt.key = (accountID, conversationID) ∧ r.store.sharesTo messageID receipt)) ∨
      ∃ old ∈ r.receipts, (old.key = (accountID, conversationID) ∧ r.store.sharesTo messageID old) ∧
        { old with sharedMessageID := some messageID } = receipt := by
  dsimp only [moveSharedCursor]
  exact Table.mem_update

theorem mem_moveSharedCursor (mem : receipt ∈ r.receipts) :
    (if receipt.key = (accountID, conversationID) ∧ r.store.sharesTo messageID receipt then
        { receipt with sharedMessageID := some messageID } else receipt) ∈
      (r.moveSharedCursor conversationID accountID messageID).2.receipts := by
  split
  · next moves => exact mem_moveSharedCursor_iff.mpr (.inr ⟨receipt, mem, moves, rfl⟩)
  · next stays => exact mem_moveSharedCursor_iff.mpr (.inl ⟨mem, stays⟩)

/-- Moving the own cursor keeps what the receipt remembers. -/
theorem Remembers.moveOwnCursor (remembers : r.Remembers accountID conversationID place)
    (marked : m ∈ r.store.messages) (now : Time) (conversation : ConversationID)
    (account : AccountID) :
    (r.moveOwnCursor now conversation account m.id).Remembers accountID conversationID place := by
  obtain ⟨receipt, mem, key, cursors⟩ := remembers
  refine ⟨_, mem_moveOwnCursor mem, ?_, ?_⟩
  · split
    · exact (advanced_key _ _ _ _).trans key
    · exact key
  · split
    · rw [advanced_shared]
      rcases cursors with shared | ⟨none, own, stored, cursor, later⟩
      · exact .inl shared
      · exact .inr ⟨none, advanced_own stored cursor later marked⟩
    · exact cursors

/-- A receipt that may share the message remembers only earlier places. -/
theorem place_lt_of_remembers (marked : m ∈ r.store.messages)
    (cursors : (∃ shared ∈ r.store.messages, receipt.sharedMessageID = some shared.id ∧ place ≤ shared.place) ∨
      (receipt.sharedMessageID = none ∧ ∃ own ∈ r.store.messages,
        receipt.messageID = some own.id ∧ (ofLex place).1 < own.createdAt))
    (shares : r.store.sharesTo m.id receipt) : place < m.place := by
  rcases cursors with ⟨shared, stored, cursor, reached⟩ | ⟨none, own, stored, cursor, later⟩
  · exact lt_of_le_of_lt reached (place_lt_of_sharesTo cursor shares stored marked)
  · rcases shares with ⟨-, missing | named⟩ | ⟨_, names, -⟩
    · cases missing.symm.trans cursor
    · have same : own.id = m.id := Option.some.inj (cursor.symm.trans named)
      cases Table.eq_of_key stored marked same
      exact place_lt_of_time_lt later
    · cases none.symm.trans names

section

variable (remembers : r.Remembers accountID conversationID place)
include remembers

theorem Remembers.moveSharedCursor
    (marked : m ∈ r.store.messages) (conversation : ConversationID) (account : AccountID) :
    (r.moveSharedCursor conversation account m.id).2.Remembers accountID conversationID place := by
  obtain ⟨receipt, mem, key, cursors⟩ := remembers
  refine ⟨_, mem_moveSharedCursor mem, ?_, ?_⟩
  · split <;> exact key
  · split
    · next moves => exact .inl ⟨m, marked, rfl, (place_lt_of_remembers marked cursors moves.2).le⟩
    · exact cursors

theorem Remembers.of_same
    (receipts : r'.receipts = r.receipts) (messages : r'.store.messages = r.store.messages) :
    r'.Remembers accountID conversationID place := by
  unfold Remembers at remembers ⊢
  rwa [receipts, messages]

theorem Remembers.marked {conversation : ConversationID} {account : AccountID}
    (marked : ReadMarked r now conversation account messageID eventID r') :
    r'.Remembers accountID conversationID place := by
  obtain ⟨m, stored, rfl⟩ := marked.named
  have own := remembers.moveOwnCursor stored now conversation account
  rcases marked.receipts with ⟨receipts, -⟩ | ⟨receipts, -⟩
  · exact own.of_same receipts marked.messages
  · exact (own.moveSharedCursor stored conversation account).of_same receipts marked.messages

/-- A read mark that announces names a message further on than any place the receipt remembers. -/
theorem Remembers.lt_of_announced (stored : m ∈ r.store.messages) (announced : eventID ≠ 0)
    (marked : ReadMarked r now conversationID accountID m.id eventID r') : place < m.place := by
  rcases marked.receipts with ⟨-, silent⟩ | ⟨-, moved⟩
  · exact absurd silent announced
  · obtain ⟨receipt, mem, key, cursors⟩ := remembers.moveOwnCursor stored now conversationID accountID
    obtain ⟨mover, moverMember, moverKey, shares⟩ := of_decide_eq_true (moved announced)
    cases Table.eq_of_key mem moverMember (key.trans moverKey.symm)
    exact place_lt_of_remembers stored cursors shares

end

/-- After an announcement the receipt remembers where it is. -/
theorem remembers_of_announced (stored : m ∈ r.store.messages) (announced : eventID ≠ 0)
    (marked : ReadMarked r now conversationID accountID m.id eventID r') :
    r'.Remembers accountID conversationID m.place := by
  rcases marked.receipts with ⟨-, silent⟩ | ⟨receipts, moved⟩
  · exact absurd silent announced
  · obtain ⟨mover, mem, moves⟩ := of_decide_eq_true (moved announced)
    have after := mem_moveSharedCursor_iff.mpr (.inr ⟨mover, mem, moves, rfl⟩)
    rw [← receipts] at after
    exact ⟨_, after, moves.1, .inl ⟨m, marked.messages ▸ stored, rfl, le_rfl⟩⟩

theorem mem_receiptsAfter : receipt ∈ r.receiptsAfter call ↔ ∃ old ∈ r.receipts, ¬ call.endsReceipt old ∧
      { old with
        messageID := (call.afterDeletes r.store).stillNamed old.messageID
        sharedMessageID := (call.afterDeletes r.store).stillNamed old.sharedMessageID } = receipt := by
  unfold receiptsAfter
  refine Table.mem_update.trans ?_
  simp [Table.mem_delete, and_assoc]

theorem membership_of_endsReceipt {s' : Store} (ok : step limits s call = .ok (given, s'))
    (ends : call.endsReceipt receipt) :
    s'.membership? receipt.accountID (.conversation receipt.conversationID) = none := by
  refine Table.find?_eq_none.mpr fun m mem same => ?_
  have account : m.accountID = receipt.accountID := congrArg Prod.fst same
  have scope : m.scope = .conversation receipt.conversationID := congrArg Prod.snd same
  cases call
  case removeConversationMember now conversationID actor target =>
    obtain ⟨_, ok, -⟩ := answer_eq_ok ok
    obtain ⟨-, -, memberships, -⟩ := Store.removeConversationMember_ok limits ok
    rw [memberships] at mem
    exact (Table.mem_delete.mp mem).2 ⟨ends.1 ▸ scope, account.trans ends.2⟩
  case deleteAccountData now accountID =>
    obtain ⟨_, ok, -⟩ := answer_eq_ok ok
    obtain ⟨_, deleted⟩ := Store.deleteAccountData_ok ok
    rw [deleted.memberships] at mem
    exact (Table.mem_delete.mp mem).2 (account.trans ends)
  all_goals exact ends

theorem Remembers.base {store : Store} (remembers : r.Remembers accountID conversationID place)
    (keeps : KeepsCursors accountID conversationID r (.base call)) (ok : step limits r.store call = .ok (given, store))
    (mem : (store.membership? accountID (.conversation conversationID)).isSome) :
    { r with store, receipts := r.receiptsAfter call : ReceiptStore }.Remembers accountID conversationID
      place := by
  obtain ⟨receipt, stored, key, cursors⟩ := remembers
  have lasts : ¬ call.endsReceipt receipt := by
    intro ends
    obtain ⟨rfl, rfl⟩ := Prod.mk.inj key
    rw [membership_of_endsReceipt ok ends] at mem
    cases mem
  refine ⟨_, mem_receiptsAfter.mpr ⟨receipt, stored, lasts, rfl⟩, key, ?_⟩
  -- The own cursor stays at a message that the call does not delete.
  have ownStays {own : MessageEnvelope} (listed : own ∈ r.store.messages) (spared : ¬ call.expires own)
      (later : (ofLex place).1 < own.createdAt) : ∃ own' ∈ store.messages,
        (call.afterDeletes r.store).stillNamed (some own.id) = some own'.id ∧ (ofLex place).1 < own'.createdAt := by
    have present := Store.present_of_unexpired listed spared
    obtain ⟨own', listed', same⟩ := Store.later_of_present ok listed present
    exact ⟨own', listed', by rw [Store.stillNamed_of_present present, same.id], same.createdAt ▸ later⟩
  rcases cursors with ⟨shared, listed, cursor, reached⟩ | ⟨none, own, listed, cursor, later⟩
  · simp only [cursor]
    by_cases present : ((call.afterDeletes r.store).messages.find? shared.id).isSome
    · obtain ⟨shared', listed', same⟩ := Store.later_of_present ok listed present
      refine .inl ⟨shared', listed', by rw [Store.stillNamed_of_present present, same.id], ?_⟩
      unfold MessageEnvelope.place
      rwa [same.id, same.createdAt]
    · have expired : call.expires shared := by
        by_contra spared
        exact present (Store.present_of_unexpired listed spared)
      obtain ⟨own, ownListed, ownCursor, later, spared⟩ := (keeps receipt stored key).1 shared listed cursor expired
      rw [ownCursor]
      refine .inr ⟨Store.stillNamed_of_gone present, ownStays ownListed spared (lt_of_le_of_lt ?_ later)⟩
      rcases Prod.Lex.le_iff.mp reached with earlier | ⟨same, -⟩
      · exact earlier.le
      · exact same.le
  · simp only [none, cursor]
    exact .inr ⟨rfl, ownStays listed ((keeps receipt stored key).2 none own listed cursor) later⟩

end Cursors

/-- A committed call keeps what a receipt remembers, as long as the reader stays a member. -/
theorem Remembers.step {call : ReceiptCall} {answer : ReceiptAnswer}
    (remembers : r.Remembers accountID conversationID place) (keeps : KeepsCursors accountID conversationID r call)
    (ok : receiptStep limits r call = .ok (answer, r'))
    (mem : (r'.store.membership? accountID (.conversation conversationID)).isSome) :
    r'.Remembers accountID conversationID place := by
  cases call <;> simp only [receiptStep] at ok
  case base call =>
    have ok := of_require ok
    obtain ⟨⟨given, store⟩, served, ok⟩ := bind_eq_ok.mp ok
    cases ok
    exact remembers.base keeps served mem
  case setReadReceiptsEnabled =>
    cases ok
    exact remembers.of_same rfl rfl
  all_goals
    obtain ⟨⟨eventID, next⟩, marked, same⟩ := map_eq_ok.mp ok
    cases same
    exact remembers.marked (markRead_ok marked)

end ReceiptStore

open ReceiptStore

/-- An announcement is a read mark that moved the shared cursor. -/
theorem Announces.marked {limits : Limits} {entry : ReceiptEntry} {accountID : AccountID}
    {conversationID : ConversationID} {m : MessageEnvelope} (announces : Announces entry accountID conversationID m)
    (served : entry = serve (receiptStep limits) entry.before entry.call) :
    ∃ now eventID, eventID ≠ 0 ∧ ReadMarked entry.before now conversationID accountID m.id eventID entry.after := by
  obtain ⟨-, now, eventID, call, answered, announced⟩ := announces
  rw [served] at answered
  have ok := ok_of_serve answered
  rw [← served, call] at ok
  obtain ⟨⟨eventID', next⟩, marked, same⟩ := map_eq_ok.mp ok
  cases same
  exact ⟨now, _, announced, markRead_ok marked⟩

/-- Of two announcements of one account in one conversation, made during one membership, the later one names a
message further on, if each call in between keeps the account's cursors or is followed only by read marks further
on than the first announcement. -/
theorem read_announcements_forward {limits : Limits} {earlier between later : List ReceiptEntry}
    {first second : ReceiptEntry} {r : ReceiptStore} {accountID : AccountID}
    {conversationID : ConversationID} {m m' : MessageEnvelope}
    (run : Run (receiptStep limits) unguarded ReceiptStore.init
      (earlier ++ first :: (between ++ second :: later)) r)
    (announced : Announces first accountID conversationID m)
    (announced' : Announces second accountID conversationID m')
    (member : ∀ entry ∈ between, (entry.after.store.membership? accountID (.conversation conversationID)).isSome)
    (keeps : ∀ before entry after, between = before ++ entry :: after →
      KeepsCursors accountID conversationID entry.before entry.call ∨
      ∀ mark ∈ after ++ [second], ∀ read ∈ mark.before.store.messages,
        mark.call.Marks accountID conversationID read.id → m.place < read.place) :
    m.place < m'.place := by
  by_cases kept : ∀ entry ∈ between, KeepsCursors accountID conversationID entry.before entry.call
  · obtain ⟨now, eventID, firstEvent, firstMarked⟩ := announced.marked run.at_entry.2.2
    obtain ⟨since, -, served⟩ := run.after_entry.at_entry
    obtain ⟨now', eventID', secondEvent, secondMarked⟩ := announced'.marked served
    have remembers := since.preserves_where (·.Remembers accountID conversationID m.place)
      (fun entry mem => And.intro (kept entry mem) (member entry mem))
      (remembers_of_announced announced.1 firstEvent firstMarked)
      fun _ _ remembers ok meets => remembers.step meets.1 ok meets.2
    exact remembers.lt_of_announced announced'.1 secondEvent secondMarked
  · -- Some call lost the cursors, and no earlier message is marked after it.
    obtain ⟨entry, mem, lost⟩ := not_forall₂.mp kept
    obtain ⟨before, after, split⟩ := List.append_of_mem mem
    obtain ⟨stored, now, _, call, -⟩ := announced'
    exact (keeps before entry after split).resolve_left lost second List.mem_concat_self m' stored
      ⟨now, .inr (.inr call)⟩

namespace Example

/-- A note of Alice's that stays and a later one that expires at 10 s. -/
def notes : List ReceiptCall :=
  room.map .base ++
    [.base (.saveMessageEnvelope 2 "lasting" true (aliceSays [7] "first" none none)),
      .base (.saveMessageEnvelope 3 "fleeting" true (aliceSays [8] "second" none (some (10 * second))))]

/-- Bob shares that they have read up to the message. -/
def bobReads (now : Time) (messageID : MessageID) : ReceiptCall :=
  .markReadWithSyncEvent now "room" bob messageID

def reading (calls : List ReceiptCall) : ReceiptStore := exec (receiptStep limits) ReceiptStore.init calls

end Example

open Example in
/-- Bob announces the first note and then the second, which is further on. -/
theorem read_announcements_forward_bob :
    ∃ m m' : MessageEnvelope, m.id = "lasting" ∧ m'.id = "fleeting" ∧ m.place < m'.place := by
  have run := run_exec (receiptStep limits) ReceiptStore.init (notes ++ [bobReads 4 "lasting", bobReads 5 "fleeting"])
  rw [execHistory_append] at run
  have parts : Run (receiptStep limits) unguarded ReceiptStore.init
      (execHistory (receiptStep limits) ReceiptStore.init notes ++
        serve (receiptStep limits) (reading notes) (bobReads 4 "lasting") ::
          ([] ++ serve (receiptStep limits) (reading (notes ++ [bobReads 4 "lasting"]))
            (bobReads 5 "fleeting") :: [])) _ := run
  obtain ⟨m, stored, named⟩ : ∃ m ∈ (reading notes).store.messages, m.id = "lasting" := by decide +kernel
  obtain ⟨m', stored', named'⟩ : ∃ m ∈ (reading (notes ++ [bobReads 4 "lasting"])).store.messages,
      m.id = "fleeting" := by decide +kernel
  have first : Announces (serve (receiptStep limits) (reading notes) (bobReads 4 "lasting")) bob "room" m :=
    ⟨by rwa [serve_before], 4, 4, by rw [serve_call, named]; rfl, by decide +kernel, by decide⟩
  have second : Announces (serve (receiptStep limits) (reading (notes ++ [bobReads 4 "lasting"]))
      (bobReads 5 "fleeting")) bob "room" m' :=
    ⟨by rwa [serve_before], 5, 5, by rw [serve_call, named']; rfl, by decide +kernel, by decide⟩
  exact ⟨m, m', named, named', read_announcements_forward parts first second (by simp) (by simp)⟩

open Example in
/-- Bob announces the second note; it expires and is swept; then Bob announces the first one. -/
theorem announcement_goes_back :
    ∃ (earlier between : List ReceiptEntry) (first second : ReceiptEntry) (r : ReceiptStore)
      (m m' : MessageEnvelope),
      Run (receiptStep limits) unguarded ReceiptStore.init (earlier ++ first :: (between ++ [second])) r ∧
      Announces first bob "room" m ∧ Announces second bob "room" m' ∧
      (∀ entry ∈ between, (entry.after.store.membership? bob (.conversation "room")).isSome) ∧
      m'.place < m.place := by
  have run := run_exec (receiptStep limits) ReceiptStore.init
    (notes ++ [bobReads 4 "fleeting", .base (.pruneExpiredContent (20 * second)), bobReads (21 * second) "lasting"])
  rw [execHistory_append] at run
  obtain ⟨m, stored, named, created⟩ : ∃ m ∈ (reading notes).store.messages,
      m.id = "fleeting" ∧ m.createdAt = 3 := by decide +kernel
  obtain ⟨m', stored', named', created'⟩ : ∃ m ∈ (reading (notes ++ [bobReads 4 "fleeting",
      .base (.pruneExpiredContent (20 * second))])).store.messages,
      m.id = "lasting" ∧ m.createdAt = 2 := by decide +kernel
  refine ⟨_, [_], _, _, _, m, m', run, ?_, ?_, ?_, ?_⟩
  · exact ⟨by rwa [serve_before], 4, 4, by rw [serve_call, named]; rfl, by decide +kernel, by decide⟩
  · exact ⟨by rwa [serve_before], 21 * second, 5, by rw [serve_call, named']; rfl, by decide +kernel, by decide⟩
  · decide +kernel
  · refine place_lt_of_time_lt ?_
    rw [created]
    change m'.createdAt < 3
    rw [created']
    decide

end Veritra.Storage
