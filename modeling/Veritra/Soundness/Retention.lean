import Veritra.Soundness.CommitOrder

/-! # When retention makes progress

A revocation keeps the id of its commit, and the reference forbids deleting the commit's row. The
row goes with its sync event, so one such event before the cutoff stops every prune of that age.
Apart from it pruning always succeeds and removes every event before the cutoff.
-/

namespace Veritra.Storage

open Relational Machine

/-- A revocation names a retained commit whose sync event is older than the cutoff. -/
def Store.commitHeldBefore (s : Store) (olderThan : Time) : Prop :=
  ∃ r ∈ s.mls.revocations, ∃ m ∈ s.mls.messages, r.commitMessageID = some m.id ∧
    ∃ e ∈ s.events, e.id = m.syncEventID ∧ e.createdAt < olderThan

namespace Store

variable {s s' : Store} {olderThan clock : Time} {count : ℕ}

/-- A committed batch that is full leaves fewer events. -/
theorem BatchPruned.shrinks (pruned : BatchPruned s clock olderThan count s') (positive : 0 < count) :
    s'.events.rows.length < s.events.rows.length := by
  have listed : 0 < (s.oldSyncEvents olderThan).length := by
    rw [← pruned.count_eq]
    exact positive
  obtain ⟨e, mem⟩ := List.exists_mem_of_length_pos listed
  have nodup : s'.events.rows.Nodup :=
    s'.events.ordered.imp fun less same => absurd (same ▸ less) (Nat.lt_irrefl _)
  have subset : s'.events.rows ⊆ s.events.rows.erase e := by
    intro other kept
    obtain ⟨old, unlisted⟩ := (pruned.events other).mp kept
    refine (List.mem_erase_of_ne ?_).mpr old
    rintro rfl
    exact unlisted mem
  have shorter := (List.subperm_of_subset nodup subset).length_le
  rw [List.length_erase_of_mem (mem_of_mem_oldSyncEvents mem).1] at shorter
  have some := List.length_pos_of_mem (mem_of_mem_oldSyncEvents mem).1
  omega

theorem BatchPruned.keeps_unheld (pruned : BatchPruned s clock olderThan count s')
    (free : ¬ s.commitHeldBefore olderThan) : ¬ s'.commitHeldBefore olderThan := by
  rintro ⟨r, revocation, m, message, names, e, event, same, old⟩
  obtain ⟨_, _, _, rfl⟩ := pruned.frame
  exact free ⟨r, revocation, m, ((pruned.messages m).mp message).1, names, e, ((pruned.events e).mp event).1, same, old⟩

theorem batch_unblocked (free : ¬ s.commitHeldBefore olderThan) :
    ¬ ∃ r ∈ s.mls.revocations, ∃ m ∈ s.mls.messages,
      cascades (s.oldSyncEvents olderThan) m ∧ r.commitMessageID = some m.id := by
  rintro ⟨r, revocation, m, message, ⟨e, listed, same⟩, names⟩
  obtain ⟨event, old⟩ := mem_of_mem_oldSyncEvents listed
  exact free ⟨r, revocation, m, message, names, e, event, same, old⟩

/-- Without a held commit, enough batches remove every event before the cutoff. -/
theorem pruneEventRows_succeeds (clock : ℕ → Time) {fuel total : ℕ}
    (free : ¬ s.commitHeldBefore olderThan) (enough : s.events.rows.length < fuel) :
    (∃ n, (pruneEventRows olderThan clock fuel s total).1 = .ok n) ∧
      ∀ e ∈ (pruneEventRows olderThan clock fuel s total).2.events, ¬ e.createdAt < olderThan := by
  induction fuel generalizing s total with
  | zero => omega
  | succ fuel ih =>
    obtain ⟨next, batch⟩ : ∃ next, s.pruneSyncEventsBatch (clock fuel) olderThan = .ok (_, next) :=
      ⟨_, require_bind_of (batch_unblocked free)⟩
    have pruned := pruneSyncEventsBatch_ok batch
    simp only [pruneEventRows, batch]
    split
    · next notFull =>
      refine ⟨⟨_, rfl⟩, ?_⟩
      intro e mem old
      obtain ⟨event, unlisted⟩ := (pruned.events e).mp mem
      exact unlisted (mem_oldSyncEvents_of_not_full notFull event old)
    · have positive : 0 < (s.oldSyncEvents olderThan).length := by
        have batchSize : 0 < pruneBatch := by decide
        omega
      have shrinks := pruned.shrinks positive
      exact ih (pruned.keeps_unheld free) (by omega)

/-- An event that holds a commit is never removed: the batch that reaches it is refused. -/
theorem pruneEventRows_keeps_held (clock : ℕ → Time) {fuel total : ℕ} {r : MLSRevocation}
    {m : MLSMessage} {e : SyncEvent} (revocation : r ∈ s.mls.revocations)
    (message : m ∈ s.mls.messages) (names : r.commitMessageID = some m.id) (event : e ∈ s.events)
    (same : e.id = m.syncEventID) : e ∈ (pruneEventRows olderThan clock fuel s total).2.events := by
  induction fuel generalizing s total with
  | zero => exact event
  | succ fuel ih =>
    simp only [pruneEventRows]
    split
    · exact event
    · next removed next batch =>
      have pruned := pruneSyncEventsBatch_ok batch
      have unlisted : e ∉ s.oldSyncEvents olderThan := fun listed =>
        pruned.unblocked ⟨r, revocation, m, message, ⟨e, listed, same⟩, names⟩
      have kept : e ∈ next.events := (pruned.events e).mpr ⟨event, unlisted⟩
      split
      · exact kept
      · refine ih ?_ ((pruned.messages m).mpr ⟨message, ?_⟩) kept
        · obtain ⟨_, _, _, rfl⟩ := pruned.frame
          exact revocation
        · rintro ⟨other, listed, otherSame⟩
          have equal := Log.eq_of_id (mem_of_mem_oldSyncEvents listed).1 event (otherSame.trans same.symm)
          exact unlisted (equal ▸ listed)

end Store

/-- A prune that is not cancelled succeeds and leaves no event before the cutoff exactly when no
revocation names a retained commit whose event is older than the cutoff. -/
theorem pruneSyncEvents_complete_iff (s : Store) (clock : ℕ → Time) (olderThan : Time) :
    ((∃ n, (s.pruneSyncEvents clock olderThan).1 = .ok n) ∧
      ∀ e ∈ (s.pruneSyncEvents clock olderThan).2.events, ¬ e.createdAt < olderThan) ↔
    ¬ s.commitHeldBefore olderThan := by
  constructor
  · rintro ⟨-, complete⟩ ⟨r, revocation, m, message, names, e, event, same, old⟩
    exact complete e (Store.pruneEventRows_keeps_held clock revocation message names event same) old
  · intro free
    exact Store.pruneEventRows_succeeds clock free (Nat.lt_succ_self _)

namespace Example

/-- Alice's bundle that removes Bob's revoked device. -/
def aliceRemovesBob : MLSCommitBundleInput :=
  ⟨"room", alice, "alice-phone", 1, "remove-bob", [4], [], [], [⟨bob, "bob-phone"⟩], "bob-phone"⟩

/-- Bob's only device is revoked, and Alice commits its removal. -/
def bobRevoked : List Call :=
  group ++ [.revokeDeviceWithSyncEvent 3 bob "bob-phone", .createMLSCommitBundle 4 (ids "third") aliceRemovesBob]

end Example

open Example in
/-- After one completed device revocation no prune past its commit succeeds. -/
theorem prune_refused_after_revocation :
    ∃ history s, ServerRun limits history s ∧
      (s.pruneSyncEvents (fun _ => 100) 100).1 = .error .foreignKeyConstraint ∧
      ∃ e ∈ (s.pruneSyncEvents (fun _ => 100) 100).2.events, e.createdAt < 100 := by
  refine ⟨_, _, run_exec (step limits) Store.init bobRevoked, ?_, ?_⟩
  all_goals decide +kernel

end Veritra.Storage
