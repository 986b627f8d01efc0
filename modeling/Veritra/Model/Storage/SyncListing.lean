import Veritra.Relational.Merge
import Veritra.Model.Storage.Retention

/-! # Listing sync events

`ListSyncEvents` reads a page of events for one device and then tests whether retention pruned
something the page lacks. The page is a merge: one chain per conversation the account belongs to
and one for the account's own events, taken from a queue in id order, each event with a flag that
says whether the device may see it. The reads are separate statements, so each may see a later
state of the database than the one before.
-/

namespace Veritra.Storage

open Relational Machine

namespace Store

/-- The account whose block hides the event. -/
def syncEventSender (s : Store) (e : SyncEvent) : Option AccountID :=
  if e.eventType.isMessageEnvelope then
    ((e.payload.messageID.bind s.messages.find?).map (·.senderAccountID)).or e.payload.senderAccountID
  else if e.eventType.isReaction ∨ e.eventType = .readReceiptUpdated then e.payload.accountID
  else if e.eventType.isCall then e.payload.createdBy
  else none

/-- The event comes from an account that `blocker` blocked or, for a read receipt, from one that
blocked `blocker`. -/
def syncEventBlockedFor (s : Store) (blocker : AccountID) (e : SyncEvent) : Prop :=
  (∃ b ∈ s.blocks, b.blockerAccountID = blocker ∧ s.syncEventSender e = some b.blockedAccountID) ∨
  (e.eventType = .readReceiptUpdated ∧
    ∃ b ∈ s.blocks, e.payload.accountID = some b.blockerAccountID ∧ b.blockedAccountID = blocker)
  deriving Decidable

/-- The epoch an application envelope was encrypted in is not before the device joined. -/
def epochAdmits (row : MLSDevice) (e : SyncEvent) : Prop :=
  e.eventType.isMessageEnvelope → ∀ envelope ∈ e.payload.envelope,
    ∀ epoch ∈ envelope.cryptoMetadata.mlsEpoch, (row.joinedEpoch : ℤ) ≤ epoch
  deriving Decidable

/-- The event lies in the device's window of the group, if the group has a recorded roster. -/
def mlsJoinFilterEventFor (s : Store) (deviceID : DeviceID) (e : SyncEvent) : Prop :=
  (¬ ∃ g ∈ s.mls.groups, e.conversationID = some g.conversationID) ∨
  (∃ row ∈ s.mls.devices, e.conversationID = some row.conversationID ∧ row.deviceID = deviceID ∧
    row.joinedAfterEventID < e.id ∧ (∀ removed ∈ row.removedAfterEventID, e.id ≤ removed) ∧
    epochAdmits row e)
  deriving Decidable

/-- The conversation event may go to the account's device. -/
def syncEventVisibleTo (s : Store) (clock : Time) (accountID : AccountID) (deviceID : DeviceID)
    (e : SyncEvent) : Prop :=
  (e.eventType.rosterFiltered → s.mlsJoinFilterEventFor deviceID e) ∧
    ¬ s.syncEventBlockedFor accountID e ∧ s.syncEventEnvelopeLive clock e
  deriving Decidable

/-- What a device may be sent: the events addressed to its account, for all its devices or for this
one, and the visible events of the conversations its account belongs to. -/
def deliverable (s : Store) (clock : Time) (accountID : AccountID) (deviceID : DeviceID)
    (e : SyncEvent) : Prop :=
  (e.accountID = some accountID ∧ (e.deviceID = none ∨ e.deviceID = some deviceID)) ∨
  (e.accountID = none ∧ (∃ id ∈ e.conversationID, s.isConversationMember id accountID) ∧
    s.syncEventVisibleTo clock accountID deviceID e)
  deriving Decidable

/-- A source of the merge: the account's own events, or the events of one conversation. -/
inductive Chain
  | account
  | conversation (id : ConversationID)
  deriving DecidableEq, Repr

def inChain (accountID : AccountID) (deviceID : DeviceID) : Chain → SyncEvent → Bool
  | .account, e => e.accountID = some accountID && (e.deviceID = none || e.deviceID = some deviceID)
  | .conversation id, e => e.conversationID = some id && e.accountID = none

/-- One chain per conversation membership, and one for the account's own events. -/
def chains (s : Store) (accountID : AccountID) : List Chain :=
  (s.memberships.rows.filter (·.accountID = accountID)).filterMap (fun m =>
    match m.scope with
    | .conversation id => some (.conversation id)
    | .community _ => none) ++ [.account]

/-- An event with the chain it came from. -/
abbrev Candidate := Merge.Queued Chain SyncEvent

/-- `first_events`: each chain's first event after the cursor. -/
def firstEvents (s : Store) (accountID : AccountID) (deviceID : DeviceID) (after : ℤ) : List Candidate :=
  Merge.seeds SyncEvent.id s.events.rows (inChain accountID deviceID) (s.chains accountID) after

/-- `candidates`: each row taken out of the queue, in id order, queues the next event of its chain. -/
def candidates (s : Store) (accountID : AccountID) (deviceID : DeviceID) (fuel : ℕ)
    (queue : List Candidate) : List Candidate :=
  Merge.walk SyncEvent.id s.events.rows (inChain accountID deviceID) fuel queue

/-- `listSyncEventsQuery`: the candidates in queue order. No event is taken twice, so their number
is at most that of the events. -/
def listSyncEventsQuery (s : Store) (accountID : AccountID) (deviceID : DeviceID) (after : ℤ) :
    List Candidate :=
  s.candidates accountID deviceID s.events.rows.length (s.firstEvents accountID deviceID after)

/-- The account's own events need no visibility test. -/
def candidateVisible (s : Store) (clock : Time) (accountID : AccountID) (deviceID : DeviceID)
    (candidate : Candidate) : Prop :=
  candidate.chain = .account ∨ s.syncEventVisibleTo clock accountID deviceID candidate.row
  deriving Decidable

/-- Read candidates until the page is full; one out of id order fails the page. -/
def readPage (s : Store) (clock : Time) (accountID : AccountID) (deviceID : DeviceID) :
    ℕ → ℤ → List Candidate → Except StoreError (List SyncEvent)
  | 0, _, _ => .ok []
  | _, _, [] => .ok []
  | limit + 1, last, candidate :: rest => do
    require (last < candidate.row.id) StoreError.syncMergeOrder
    if s.candidateVisible clock accountID deviceID candidate then do
      let events ← readPage s clock accountID deviceID limit candidate.row.id rest
      pure (candidate.row :: events)
    else readPage s clock accountID deviceID (limit + 1) candidate.row.id rest

def listSyncEventsPage (s : Store) (clock : Time) (accountID : AccountID) (deviceID : DeviceID)
    (after : ℤ) (limit : ℕ) : Except StoreError (List SyncEvent) :=
  s.readPage clock accountID deviceID limit after (s.listSyncEventsQuery accountID deviceID after)

/-- `syncPruneMarksExpiredQuery`: a pruned event after the cursor could have gone to the device. -/
def syncPruneMarksExpired (s : Store) (accountID : AccountID) (deviceID : DeviceID) (after : ℤ) : Prop :=
  (∃ mark ∈ s.pruneMarks.accounts, mark.accountID = accountID ∧
    (mark.deviceID = "" ∨ mark.deviceID = deviceID) ∧ after < mark.prunedThrough) ∨
  (∃ k ∈ s.pruneMarks.conversations, s.isConversationMember k.conversationID accountID ∧
    after < k.prunedThrough ∧
    (k.rosterFiltered = false ∨ ¬ s.hasMLSGroup k.conversationID ∨
      ∃ row ∈ s.mls.devices, row.conversationID = k.conversationID ∧ row.deviceID = deviceID ∧
        row.joinedAfterEventID < k.prunedThrough ∧
        ∀ removed ∈ row.removedAfterEventID, after < removed ∧ row.joinedAfterEventID < removed))
  deriving Decidable

/-- The event counts towards the account's oldest bound. -/
def countsForOldest (s : Store) (accountID : AccountID) (e : SyncEvent) : Prop :=
  e.accountID = some accountID ∨ (e.accountID = none ∧
    (∃ id ∈ e.conversationID, s.isConversationMember id accountID) ∧
    ¬ s.syncEventBlockedFor accountID e)
  deriving Decidable

/-- `syncOldestExpr`: the lowest event id the account may see. -/
def syncOldest (s : Store) (accountID : AccountID) : Option EventID :=
  (s.events.rows.find? fun e => s.countsForOldest accountID e).map (·.id)

/-- `legacySyncCursorExpiredQuery`: the test from before the marks. -/
def legacySyncCursorExpired (s : Store) (accountID : AccountID) (after : ℤ) : Prop :=
  (¬ ∃ e ∈ s.events, (e.id : ℤ) = after ∧ s.countsForOldest accountID e) ∧
    ∃ oldest ∈ s.syncOldest accountID, after < (oldest : ℤ) - 1
  deriving Decidable

/-- `syncCursorExpired`. The three arguments of type `Store` are the database at the reads of the
state row, of the marks and of the legacy test. -/
def syncCursorExpired (atState atMarks atLegacy : Store) (accountID : AccountID) (deviceID : DeviceID)
    (after : ℤ) : Prop :=
  (∀ state ∈ atState.pruneMarks.state, after < state.prunedThrough) ∧
  (atMarks.syncPruneMarksExpired accountID deviceID after ∨
    ((∀ state ∈ atState.pruneMarks.state, after < state.legacyThrough) ∧
      atLegacy.legacySyncCursorExpired accountID after))
  deriving Decidable

/-- The database at each read of one listing, with the clock of the first. -/
structure ListingReads where
  clock : Time
  atPage : Store
  atState : Store
  atMarks : Store
  atLegacy : Store

/-- The page after a cursor, or the expired error. The expiry test runs after the page. -/
def listSyncEvents (reads : ListingReads) (accountID : AccountID) (deviceID : DeviceID) (after : ℤ)
    (limit : ℤ) : Except StoreError (List SyncEvent) := do
  let limit := if limit ≤ 0 ∨ 200 < limit then 100 else limit.toNat
  let events ← reads.atPage.listSyncEventsPage reads.clock accountID deviceID after limit
  require (0 < after → ¬ syncCursorExpired reads.atState reads.atMarks reads.atLegacy accountID deviceID
    after) StoreError.syncCursorExpired
  pure events

end Store
end Veritra.Storage
