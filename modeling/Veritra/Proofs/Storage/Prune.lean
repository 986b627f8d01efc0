import Veritra.Model.Storage.Retention

/-! # What one prune batch does

A batch takes the oldest events before the cutoff. Events are named by their ids, so the batch
deletes exactly the events it lists, together with the MLS messages that belong to them.
-/

namespace Veritra.Storage

open Relational Machine

namespace Store

variable {s : Store} {olderThan : Time} {e : SyncEvent}

theorem mem_of_mem_oldSyncEvents (mem : e ∈ s.oldSyncEvents olderThan) :
    e ∈ s.events ∧ e.createdAt < olderThan := by
  have filtered := List.mem_filter.mp (List.mem_of_mem_take mem)
  exact ⟨filtered.1, of_decide_eq_true filtered.2⟩

/-- A batch that is not full lists every event before the cutoff. -/
theorem mem_oldSyncEvents_of_not_full (notFull : (s.oldSyncEvents olderThan).length < pruneBatch)
    (mem : e ∈ s.events) (old : e.createdAt < olderThan) :
    e ∈ s.oldSyncEvents olderThan := by
  unfold oldSyncEvents at notFull ⊢
  rw [List.length_take] at notFull
  rw [List.take_of_length_le (by omega)]
  exact List.mem_filter.mpr ⟨mem, decide_eq_true old⟩

/-- What a committed batch leaves. -/
structure BatchPruned (s : Store) (clock olderThan : Time) (count : ℕ) (s' : Store) : Prop where
  count_eq : count = (s.oldSyncEvents olderThan).length
  unblocked : ¬ ∃ r ∈ s.mls.revocations, ∃ m ∈ s.mls.messages,
    cascades (s.oldSyncEvents olderThan) m ∧ r.commitMessageID = some m.id
  frame : ∃ events messages pruneMarks, s' = { s with events, mls := { s.mls with messages }, pruneMarks }
  events : ∀ e, e ∈ s'.events ↔ e ∈ s.events ∧ e ∉ s.oldSyncEvents olderThan
  last : s'.events.last = s.events.last
  messages : ∀ m, m ∈ s'.mls.messages ↔ m ∈ s.mls.messages ∧ ¬ cascades (s.oldSyncEvents olderThan) m
  marks : s'.pruneMarks = (s.oldSyncEvents olderThan).foldl (PruneMarks.markDeleted s clock) s.pruneMarks

theorem pruneSyncEventsBatch_ok {s' : Store} {clock : Time} {count : ℕ}
    (pruned : s.pruneSyncEventsBatch clock olderThan = .ok (count, s')) :
    BatchPruned s clock olderThan count s' := by
  obtain ⟨unblocked, pruned⟩ := require_ok.mp pruned
  cases pruned
  refine ⟨rfl, unblocked, ⟨_, _, _, rfl⟩, ?_, rfl, fun m => IndexedTable.mem_delete, rfl⟩
  intro e
  rw [Log.mem_delete]
  refine and_congr_right fun mem => not_congr ⟨?_, fun listed => ⟨e, listed, rfl⟩⟩
  rintro ⟨old, listed, same⟩
  rwa [← Log.eq_of_id (mem_of_mem_oldSyncEvents listed).1 mem same]

end Store
end Veritra.Storage
