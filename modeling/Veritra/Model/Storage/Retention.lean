import Veritra.Model.Storage.Messages

/-! # Event retention

`PruneSyncEvents` deletes old sync events in batches, each batch one statement. The triggers of
migration 0044 record the highest pruned id of every place a device reads events from, and the
foreign keys of migrations 0021 and 0022 act on every delete: an MLS message goes with its event,
and a message that a revocation names as its commit may not go.
-/

namespace Veritra.Storage

open Relational Machine

/-- A message event is hidden for its envelope: expired, gone, or deleted, all but the marker. -/
def Store.syncEventEnvelopeLive (s : Store) (clock : Time) (e : SyncEvent) : Prop :=
  e.eventType.isMessageEnvelope → ∃ live ∈ s.messages, e.payload.messageID = some live.id ∧
    live.unexpired (sqlNow clock) ∧ (live.deletedAt = none ∨ e.eventType = .messageEnvelopeDeleted)
  deriving Decidable

namespace PruneMarks

/-- The marks as migration 0044 starts them: everything below the oldest event left, or with no event
left every id given out, was pruned before marks were kept. -/
def seeded (s : Store) : PruneMarks :=
  let through := (s.events.rows.head?.map (·.id - 1)).getD s.events.last
  ⟨some ⟨through, through⟩, .empty, .empty⟩

/-- Trigger `sync_prune_high_water`. -/
def markHighWater (marks : PruneMarks) (e : SyncEvent) : PruneMarks :=
  { marks with
    state := marks.state.map fun state => { state with prunedThrough := max state.prunedThrough e.id } }

/-- Trigger `sync_prune_account_mark`. -/
def markAccount (marks : PruneMarks) (e : SyncEvent) : PruneMarks :=
  match e.accountID with
  | none => marks
  | some accountID =>
    { marks with
      accounts := marks.accounts.upsert ⟨accountID, e.deviceID.getD "", e.id⟩
        fun mark => { mark with prunedThrough := max mark.prunedThrough e.id } }

/-- Trigger `sync_prune_conversation_mark`. -/
def markConversation (marks : PruneMarks) (s : Store) (clock : Time) (e : SyncEvent) : PruneMarks :=
  match e.accountID, e.conversationID with
  | none, some conversationID =>
    if s.syncEventEnvelopeLive clock e then
      { marks with
        conversations := marks.conversations.upsert ⟨conversationID, e.eventType.rosterFiltered, e.id⟩
          fun mark => { mark with prunedThrough := max mark.prunedThrough e.id } }
    else marks
  | _, _ => marks

/-- The three triggers for one deleted event. -/
def markDeleted (s : Store) (clock : Time) (marks : PruneMarks) (e : SyncEvent) : PruneMarks :=
  ((marks.markHighWater e).markAccount e).markConversation s clock e

end PruneMarks

namespace Store

/-- `SELECT ... WHERE created_at < cutoff ORDER BY id LIMIT 500`. -/
def oldSyncEvents (s : Store) (olderThan : Time) : List SyncEvent :=
  (s.events.rows.filter (·.createdAt < olderThan)).take pruneBatch

/-- The MLS messages that go with a list of deleted events. -/
def cascades (events : List SyncEvent) (m : MLSMessage) : Prop := ∃ e ∈ events, e.id = m.syncEventID
  deriving Decidable

/-- One delete statement. It is refused as a whole when a revocation still names the commit of one
of the deleted events. -/
def pruneSyncEventsBatch (s : Store) (clock olderThan : Time) : Except StoreError (ℕ × Store) := do
  let batch := s.oldSyncEvents olderThan
  require (¬ ∃ r ∈ s.mls.revocations, ∃ m ∈ s.mls.messages, cascades batch m ∧
    r.commitMessageID = some m.id) StoreError.foreignKeyConstraint
  pure (batch.length,
    { s with
      events := s.events.delete fun e => ∃ old ∈ batch, old.id = e.id
      mls := { s.mls with messages := s.mls.messages.delete (cascades batch) }
      pruneMarks := batch.foldl (PruneMarks.markDeleted s clock) s.pruneMarks })

/-- `pruneEventRows`: batches until one is not full. A failing batch keeps the ones before it. The
first argument bounds the number of batches, and `clock n` is the time of the n-th one. -/
def pruneEventRows (olderThan : Time) (clock : ℕ → Time) :
    ℕ → Store → ℕ → Except StoreError ℕ × Store
  | 0, s, total => (.ok total, s)
  | fuel + 1, s, total =>
    match s.pruneSyncEventsBatch (clock fuel) olderThan with
    | .error refusal => (.error refusal, s)
    | .ok (removed, next) =>
      if removed < pruneBatch then (.ok (total + removed), next)
      else pruneEventRows olderThan clock fuel next (total + removed)

/-- Delete the sync events older than the cutoff, when the call is not cancelled. A batch that is
followed by another removes events, so one batch more than there are events is never needed. -/
def pruneSyncEvents (s : Store) (clock : ℕ → Time) (olderThan : Time) : Except StoreError ℕ × Store :=
  pruneEventRows olderThan clock (s.events.rows.length + 1) s 0

end Store
end Veritra.Storage
