import Veritra.Model.Storage.Server

/-! # Read receipts

How far an account has read in a conversation, from `content_store.go` and `receipt_store.go`. The row
holds two cursors: the account's own, which every read mark moves, and the one that other members see,
which only a shared read mark moves and which is announced when it moves. Both are foreign keys that a
deleted message sets to null. The tables stand around the store, whose calls are served as before.
-/

namespace Veritra.Storage

open Relational Machine

/-- A row of `read_receipts`. -/
structure ReadReceipt where
  accountID : AccountID
  conversationID : ConversationID
  messageID : Option MessageID
  readAt : Time
  sharedMessageID : Option MessageID
  deriving DecidableEq, Repr

def ReadReceipt.key (receipt : ReadReceipt) : AccountID × ConversationID :=
  (receipt.accountID, receipt.conversationID)

/-- The store with the receipts, and the accounts that have `send_read_receipts` switched off. -/
structure ReceiptStore where
  store : Store
  receipts : Table ReadReceipt ReadReceipt.key
  silent : List AccountID

def ReceiptStore.init : ReceiptStore := ⟨.init, .empty, []⟩

namespace Store

/-- `(SELECT created_at FROM message_envelopes WHERE id = messageID)`. -/
def messageCreatedAt (s : Store) (messageID : MessageID) : Option Time :=
  (s.messages.find? messageID).map (·.createdAt)

/-- The own cursor moves to another message that was not created before. -/
def advancesTo (s : Store) (messageID : MessageID) : Option MessageID → Prop
  | none => True
  | some current => messageID ≠ current ∧
    ∃ old ∈ s.messageCreatedAt current, ∃ new ∈ s.messageCreatedAt messageID, old ≤ new

/-- The shared cursor moves forward by time and then by id. When its message is gone, it moves only
to the own cursor. -/
def sharesTo (s : Store) (messageID : MessageID) (receipt : ReadReceipt) : Prop :=
  (receipt.sharedMessageID = none ∧ (receipt.messageID = none ∨ receipt.messageID = some messageID)) ∨
    ∃ shared ∈ receipt.sharedMessageID, shared ≠ messageID ∧
      ∃ old ∈ s.messageCreatedAt shared, ∃ new ∈ s.messageCreatedAt messageID,
        old < new ∨ (old = new ∧ shared < messageID)
  deriving Decidable

instance (s : Store) (messageID : MessageID) (current : Option MessageID) :
    Decidable (s.advancesTo messageID current) :=
  match current with
  | none => .isTrue trivial
  | some _ => inferInstanceAs (Decidable (_ ∧ _))

end Store

namespace ReceiptStore

def advanced (s : Store) (now : Time) (messageID : MessageID) (old : ReadReceipt) : ReadReceipt :=
  if s.advancesTo messageID old.messageID then { old with messageID := some messageID, readAt := now }
  else old

theorem advanced_key (s : Store) (now : Time) (messageID : MessageID) (old : ReadReceipt) :
    (advanced s now messageID old).key = old.key := by
  unfold advanced
  split <;> rfl

/-- The upsert of `markRead`. -/
def moveOwnCursor (r : ReceiptStore) (now : Time) (conversationID : ConversationID)
    (accountID : AccountID) (messageID : MessageID) : ReceiptStore :=
  let receipts := r.receipts.upsert ⟨accountID, conversationID, some messageID, now, none⟩
    (advanced r.store now messageID) (advanced_key r.store now messageID)
  { r with receipts }

/-- The update of the shared cursor, with whether a row was affected. -/
def moveSharedCursor (r : ReceiptStore) (conversationID : ConversationID) (accountID : AccountID)
    (messageID : MessageID) : Bool × ReceiptStore :=
  let moves (receipt : ReadReceipt) : Prop :=
    receipt.key = (accountID, conversationID) ∧ r.store.sharesTo messageID receipt
  (decide (∃ receipt ∈ r.receipts, moves receipt),
    { r with receipts := r.receipts.update moves fun receipt =>
        { receipt with sharedMessageID := some messageID } })

/-- `markRead`: move the own cursor, and for a shared read the shared one, with an event when it
moved and the caller asks for one. The answer is the id of the event, zero for none. -/
def markRead (r : ReceiptStore) (now : Time) (conversationID : ConversationID) (accountID : AccountID)
    (messageID : MessageID) (eventType : Option EventType) (isPrivate : Bool) :
    Except StoreError (EventID × ReceiptStore) := do
  require (r.store.isConversationMember conversationID accountID) StoreError.notMember
  -- An account that switched receipts off shares none.
  let isPrivate := isPrivate || decide (accountID ∈ r.silent)
  require (∃ m ∈ r.store.messages, m.id = messageID ∧ m.conversationID = conversationID ∧ m.unexpired now)
    StoreError.notFound
  let r := r.moveOwnCursor now conversationID accountID messageID
  if isPrivate then pure (0, r)
  else
    let (moved, r) := r.moveSharedCursor conversationID accountID messageID
    match moved, eventType with
    | true, some eventType =>
      let (eventID, store) := r.store.insertSyncEvent eventType none (some conversationID)
        (.ofAccount accountID) now
      pure (eventID, { r with store })
    | _, _ => pure (0, r)

/-- `SetReadReceiptsEnabled`. -/
def setReadReceiptsEnabled (r : ReceiptStore) (accountID : AccountID) (enabled : Bool) : ReceiptStore :=
  { r with silent := if enabled then r.silent.filter (· ≠ accountID) else accountID :: r.silent }

end ReceiptStore

/-- The store after the call's deletions of message rows, before it inserts one. -/
def Call.afterDeletes (s : Store) : Call → Store
  | saveMessageEnvelope now _ _ envelope =>
    s.deleteExpiredMessageByIdempotency envelope.senderDeviceID envelope.idempotencyKey now
  | pruneExpiredContent now => (s.pruneExpiredContent now).2
  | _ => s

/-- The call deletes the receipt, with the membership it belongs to. -/
def Call.endsReceipt (receipt : ReadReceipt) : Call → Prop
  | removeConversationMember _ conversationID _ target =>
    receipt.conversationID = conversationID ∧ receipt.accountID = target
  | deleteAccountData _ accountID => receipt.accountID = accountID
  | _ => False

instance (call : Call) : DecidablePred (fun receipt => call.endsReceipt receipt) := fun receipt => by
  unfold Call.endsReceipt
  split <;> infer_instance

/-- `ON DELETE SET NULL`: a cursor whose message is gone names nothing. -/
def Store.stillNamed (s : Store) (cursor : Option MessageID) : Option MessageID :=
  cursor.filter fun messageID => (s.messages.find? messageID).isSome

/-- The receipts after a committed call of the store. -/
def ReceiptStore.receiptsAfter (r : ReceiptStore) (call : Call) : Table ReadReceipt ReadReceipt.key :=
  (r.receipts.delete fun receipt => call.endsReceipt receipt).update (fun _ => True) fun receipt =>
    { receipt with
      messageID := (call.afterDeletes r.store).stillNamed receipt.messageID
      sharedMessageID := (call.afterDeletes r.store).stillNamed receipt.sharedMessageID }

inductive ReceiptCall
  | base (call : Call)
  | markRead (now : Time) (conversationID : ConversationID) (accountID : AccountID) (messageID : MessageID)
  | markReadPrivate (now : Time) (conversationID : ConversationID) (accountID : AccountID)
      (messageID : MessageID)
  | markReadWithSyncEvent (now : Time) (conversationID : ConversationID) (accountID : AccountID)
      (messageID : MessageID)
  | setReadReceiptsEnabled (accountID : AccountID) (enabled : Bool)

inductive ReceiptAnswer
  | base (answer : Answer)
  | event (eventID : EventID)
  | done
  deriving DecidableEq, Repr

/-- Only a read mark announces a read receipt. -/
def Call.announcesReceipt : Call → Bool
  | recordPlainEvent _ eventType .. => eventType = .readReceiptUpdated
  | _ => false

def receiptStep (limits : Limits) (r : ReceiptStore) :
    ReceiptCall → Except StoreError (ReceiptAnswer × ReceiptStore)
  | .base call => do
    require (call.announcesReceipt = false) StoreError.invalidInput
    let (answer, store) ← step limits r.store call
    pure (.base answer, { r with store, receipts := r.receiptsAfter call })
  | .markRead now conversationID accountID messageID =>
    (r.markRead now conversationID accountID messageID none false).map fun (eventID, r) => (.event eventID, r)
  | .markReadPrivate now conversationID accountID messageID =>
    (r.markRead now conversationID accountID messageID none true).map fun (eventID, r) => (.event eventID, r)
  | .markReadWithSyncEvent now conversationID accountID messageID =>
    (r.markRead now conversationID accountID messageID (some .readReceiptUpdated) false).map
      fun (eventID, r) => (.event eventID, r)
  | .setReadReceiptsEnabled accountID enabled => .ok (.done, r.setReadReceiptsEnabled accountID enabled)

abbrev ReceiptEntry := Served ReceiptStore ReceiptCall StoreError ReceiptAnswer

end Veritra.Storage
