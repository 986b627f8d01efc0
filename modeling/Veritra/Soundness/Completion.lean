import Veritra.Soundness.Confirmations

/-! # Revocations are completed exactly once

A call moves the state of a revocation only forward, records the completed event of exactly those
revocations that it completes, and leaves no revocation that only has to be marked completed. The
operations are chains of the few writes to the revocation tables, so each of these is shown for the
single writes and for their composition.
-/

namespace Veritra.Storage

open Relational Machine

variable {before after : Option RevocationState} {k : RevocationKey} {s : Store}

/-- The state of a revocation before and after, `none` where there is no row. -/
abbrev Move := Option RevocationState → Option RevocationState → Bool

/-- Moves that compose, allow completion and never leave it. -/
structure Move.Forward (moves : Move) : Prop where
  refl : ∀ state, moves state state
  trans : ∀ first second third, moves first second → moves second third → moves first third
  complete : moves (some .commitSubmitted) (some .completed)
  stay : ∀ state, moves (some .completed) state → state = some .completed

/-- What revoking devices does to a revocation: it is queued or completed. -/
def Move.revoking : Move
  | none, none | none, some .pending | some .pending, some .pending => true
  | some .commitSubmitted, some .commitSubmitted | some .commitSubmitted, some .completed => true
  | some .completed, some .completed => true
  | _, _ => false

/-- What a commit or a confirmation does to a revocation: a pending one is submitted, or dropped with
its stale row, and a submitted one is completed. -/
def Move.committing : Move
  | none, none | some .pending, _ => true
  | some .commitSubmitted, some .commitSubmitted | some .commitSubmitted, some .completed => true
  | some .completed, some .completed => true
  | _, _ => false

/-- Queued as pending, then submitted, then completed; only a pending row is ever dropped. -/
def Move.advance : Move
  | none, none | none, some .pending | some .pending, _ => true
  | some .commitSubmitted, some .commitSubmitted | some .commitSubmitted, some .completed => true
  | some .completed, some .completed => true
  | _, _ => false

theorem Move.revoking_forward : Move.revoking.Forward := by
  refine ⟨?_, ?_, rfl, ?_⟩
  · rintro (_ | _ | _ | _) <;> rfl
  · rintro (_ | _ | _ | _) (_ | _ | _ | _) (_ | _ | _ | _) <;> simp [Move.revoking]
  · rintro (_ | _ | _ | _) <;> simp [Move.revoking]

theorem Move.committing_forward : Move.committing.Forward := by
  refine ⟨?_, ?_, rfl, ?_⟩
  · rintro (_ | _ | _ | _) <;> rfl
  · rintro (_ | _ | _ | _) (_ | _ | _ | _) (_ | _ | _ | _) <;> simp [Move.committing]
  · rintro (_ | _ | _ | _) <;> simp [Move.committing]

theorem Move.advance_of_revoking (move : Move.revoking before after) : Move.advance before after := by
  revert move
  rcases before with _ | _ | _ | _ <;> rcases after with _ | _ | _ | _ <;> decide

theorem Move.advance_of_committing (move : Move.committing before after) : Move.advance before after := by
  revert move
  rcases before with _ | _ | _ | _ <;> rcases after with _ | _ | _ | _ <;> decide

/-- The revocation was not completed before and is now. -/
def Store.completedSince (s s' : Store) (k : RevocationKey) : Prop :=
  s.revocationState k ≠ some .completed ∧ s'.revocationState k = some .completed

/-- No revocation is left that only has to be marked completed. -/
def Store.settled (s : Store) : Prop := ∀ k, ¬ s.readyToComplete k

/-- Revocations move as allowed, one completed event is recorded for each that is completed and none
for the others, and nothing is left to complete. -/
structure Exact (moves : Move) (s s' : Store) : Prop where
  moved : ∀ k, moves (s.revocationState k) (s'.revocationState k)
  recorded : ∀ k, s.completedSince s' k → ∃! e, NewlyRecorded k s s' e
  silent : ∀ k, ¬ s.completedSince s' k → ∀ e, ¬ NewlyRecorded k s s' e
  settled : s.settled → s'.settled

/-- A part of a call that only appends events. -/
structure Progress (moves : Move) (s s' : Store) : Prop extends Exact moves s s' where
  grows : s.events.Grows (fun _ => True) s'.events

namespace Progress

variable {middle : Store} {input : MLSCommitBundleInput} {moves : Move} {s' s'' : Store} {now : Time}
  {accountID : AccountID} {deviceID : DeviceID} {result : MLSCommitBundleResult} {keys : RevocationKey → Prop}
  {newID : ℕ → MLSMessageID} {P : SyncEvent → Prop}

/-- An event of the later store is new since the middle one or was new there. -/
theorem newlyRecorded_split {e : SyncEvent} (grows : s'.events.Grows (fun _ => True) s''.events)
    (recorded : NewlyRecorded k s s'' e) : NewlyRecorded k s s' e ∨ NewlyRecorded k s' s'' e := by
  obtain ⟨mem, above, notice⟩ := recorded
  rcases grows.fresh e mem with old | ⟨late, -⟩
  · exact .inl ⟨old, above, notice⟩
  · exact .inr ⟨mem, late, notice⟩

theorem trans (forward : moves.Forward) (first : Progress moves s s') (second : Progress moves s' s'') :
    Progress moves s s'' where
  moved k := forward.trans _ _ _ (first.moved k) (second.moved k)
  grows := first.grows.trans second.grows
  settled start := second.settled (first.settled start)
  recorded k completed := by
    by_cases early : s'.revocationState k = some .completed
    · obtain ⟨e, ⟨mem, above, notice⟩, unique⟩ := first.recorded k ⟨completed.1, early⟩
      refine ⟨e, ⟨second.grows.keeps e mem, above, notice⟩, fun other recorded => ?_⟩
      rcases newlyRecorded_split second.grows recorded with old | late
      · exact unique other old
      · exact absurd late (second.silent k (fun since => since.1 early) other)
    · obtain ⟨e, ⟨mem, above, notice⟩, unique⟩ := second.recorded k ⟨early, completed.2⟩
      refine ⟨e, ⟨mem, Nat.lt_of_le_of_lt first.grows.last_le above, notice⟩, fun other recorded => ?_⟩
      rcases newlyRecorded_split second.grows recorded with old | late
      · exact absurd old (first.silent k (fun since => early since.2) other)
      · exact unique other late
  silent k unfinished e recorded := by
    have stays : s'.revocationState k = some .completed → s''.revocationState k = some .completed :=
      fun completed => forward.stay _ (completed ▸ second.moved k)
    have startsOpen : s'.revocationState k ≠ some .completed → s.revocationState k ≠ some .completed :=
      fun isOpen completed => isOpen (forward.stay _ (completed ▸ first.moved k))
    rcases newlyRecorded_split second.grows recorded with old | late
    · exact first.silent k (fun since => unfinished ⟨since.1, stays since.2⟩) e old
    · exact second.silent k (fun since => unfinished ⟨startsOpen since.1, since.2⟩) e late

/-- A write that completes nothing and records no completed event. -/
theorem quiet (moved : ∀ k, moves (s.revocationState k) (s'.revocationState k))
    (none_completed : ∀ k, ¬ s.completedSince s' k) (grows : s.events.Grows P s'.events)
    (other : ∀ e, P e → e.eventType ≠ .mlsRevocationCompleted) (settled : s.settled → s'.settled) :
    Progress moves s s' where
  moved := moved
  grows := grows.mono fun _ _ => trivial
  recorded k completed := absurd completed (none_completed k)
  silent k _ e recorded := by
    rcases grows.fresh e recorded.1 with old | ⟨-, holds⟩
    · exact absurd (s.events.bounded e old) (Nat.not_le.mpr recorded.2.1)
    · exact other e holds recorded.2.2.1
  settled := settled

section

variable (forward : moves.Forward)

include forward

/-- A write outside the revocation tables. -/
theorem frame (revocations : s'.mls.revocations = s.mls.revocations)
    (required : s'.mls.requiredDevices = s.mls.requiredDevices) (grows : s.events.Grows P s'.events)
    (other : ∀ e, P e → e.eventType ≠ .mlsRevocationCompleted) : Progress moves s s' := by
  have same := Store.revocationState_congr revocations
  refine quiet (fun k => ?_) (fun k completed => ?_) grows other fun settled k ready => settled k ?_
  · rw [same]
    exact forward.refl _
  · rw [Store.completedSince, same] at completed
    exact completed.1 completed.2
  · exact ⟨same k ▸ ready.1, fun device owed => ready.2 device ((Store.owes_congr required).mpr owed)⟩

theorem refl : Progress moves s s :=
  frame forward rfl rfl (.refl s.events (P := fun _ => False)) fun _ impossible => impossible.elim

/-- Completing what an intermediate store has ready, where only the listed revocations can be. -/
theorem completes (moved : ∀ k, moves (s.revocationState k) (middle.revocationState k))
    (none_completed : ∀ k, ¬ s.completedSince middle k) (events : middle.events = s.events)
    (only : s.settled → ∀ k, middle.readyToComplete k → keys k)
    (completes : Completes keys middle s') :
    Progress moves s s' where
  moved k := by
    refine forward.trans _ _ _ (moved k) ?_
    by_cases hit : keys k ∧ middle.readyToComplete k
    · rw [completes.done k hit.1 hit.2, hit.2.1]
      exact forward.complete
    · rw [completes.other k hit]
      exact forward.refl _
  grows := events ▸ completes.grows.mono fun _ _ => trivial
  recorded k completed := by
    have hit : keys k ∧ middle.readyToComplete k := by
      by_contra miss
      exact none_completed k ⟨completed.1, completes.other k miss ▸ completed.2⟩
    have recorded := completes.recorded k hit.1 hit.2
    unfold NewlyRecorded at recorded ⊢
    rwa [events] at recorded
  silent k unfinished e recorded := by
    rcases completes.grows.fresh e recorded.1 with old | ⟨-, k', listed, ready, notice⟩
    · exact absurd (s.events.bounded e (events ▸ old)) (Nat.not_le.mpr recorded.2.1)
    · obtain rfl := recorded.2.2.unique notice
      refine unfinished ⟨fun completed => ?_, completes.done k listed ready⟩
      have stays := forward.stay _ (completed ▸ moved k)
      rw [ready.1] at stays
      cases stays
  settled settled k ready := by
    obtain ⟨ready, miss⟩ := completes.ready_iff.mp ready
    exact miss (only settled k ready)

/-- Waived confirmations, and the completion of what no longer waits. -/
theorem settle {waived : RevocationKey → DeviceID → Prop} (waives : Waives waived s middle)
    (listed : ∀ k deviceID, s.owes k deviceID → waived k deviceID → keys k)
    (isCompleted : Completes keys middle s') : Progress moves s s' := by
  refine completes forward (fun k => ?_) (fun k completed => ?_) waives.events
    (fun settled k ready => ?_) isCompleted
  · rw [waives.state]
    exact forward.refl _
  · exact completed.1 (waives.state k ▸ completed.2)
  -- A revocation that is ready only now waited for a waived confirmation.
  by_contra miss
  refine settled k ⟨waives.state k ▸ ready.1, fun device owed => ?_⟩
  exact ready.2 device ((waives.owes k device).mpr ⟨owed, fun hit => miss (listed k device owed hit)⟩)

theorem release : Progress moves s (s.releaseMLSRevocationConfirmations deviceID now) := by
  obtain ⟨middle, waives, completes⟩ := s.release_ok deviceID now
  refine settle forward waives (fun k device owed hit => ?_) completes
  rw [hit] at owed
  exact owed

end

theorem confirmed {conversationID : ConversationID} {revokedDeviceID : DeviceID} {eventID : EventID}
    (ok : s.confirmMLSRevocation now conversationID revokedDeviceID accountID deviceID =
      .ok (eventID, s')) : Progress .committing s s' := by
  rcases Store.confirm_ok ok with rfl | ⟨middle, waives, completes⟩
  · exact refl Move.committing_forward
  · exact settle Move.committing_forward waives (fun _ _ _ hit => hit.1) completes

/-- A submitted commit, and the completion of its revocation where nobody has to confirm it. -/
theorem submitted (s : Store) (conversationID : ConversationID) (revokedDeviceID : DeviceID)
    (commitMessageID : MLSMessageID) (senderDeviceID : DeviceID) (now : Time) :
    Progress .committing s
      (s.submitRevocation conversationID revokedDeviceID commitMessageID senderDeviceID now).2 := by
  obtain ⟨middle, submits, isCompleted⟩ :=
    s.submit_ok conversationID revokedDeviceID commitMessageID senderDeviceID now
  have elsewhere : ∀ k, k = (conversationID, revokedDeviceID) ∧ s.revocationState k = some .pending ∧
      middle.revocationState k = some .commitSubmitted ∨
      middle.revocationState k = s.revocationState k := by
    intro k
    by_cases hit : k = (conversationID, revokedDeviceID) ∧ s.revocationState k = some .pending
    · obtain ⟨rfl, pending⟩ := hit
      exact .inl ⟨rfl, pending, submits.submitted pending⟩
    · exact .inr (submits.other k hit)
  refine completes Move.committing_forward (fun k => ?_) (fun k completed => ?_) submits.events
    (fun settled k ready => ?_) isCompleted
  · rcases elsewhere k with ⟨-, pending, submitted⟩ | same
    · rw [pending, submitted]
      rfl
    · rw [same]
      exact Move.committing_forward.refl _
  · rcases elsewhere k with ⟨-, -, submitted⟩ | same
    · exact absurd (submitted.symm.trans completed.2) (by decide)
    · exact completed.1 (same ▸ completed.2)
  · by_contra miss
    rcases elsewhere k with ⟨here, -⟩ | same
    · exact miss here
    · refine settled k ⟨same ▸ ready.1, fun device owed => ready.2 device ?_⟩
      exact (submits.owes k device).mpr ⟨owed, fun hit => miss hit.1⟩

theorem dropped (s : Store) (conversationID : ConversationID) :
    Progress .committing s (s.dropStaleMLSRevocations conversationID) := by
  have drops := s.drop_ok conversationID
  have grows : s.events.Grows (fun _ => False) (s.dropStaleMLSRevocations conversationID).events := by
    exact .refl s.events
  refine quiet (fun k => ?_) (fun k completed => ?_) grows (fun _ impossible => impossible.elim)
    fun settled k ready => ?_
  all_goals by_cases stale : s.isStale conversationID k
  · rw [stale.2.1]
    rfl
  · rw [drops.kept k stale]
    exact Move.committing_forward.refl _
  · exact nomatch (drops.dropped k stale).symm.trans completed.2
  · exact completed.1 (drops.kept k stale ▸ completed.2)
  · exact nomatch (drops.dropped k stale).symm.trans ready.1
  · refine settled k ⟨drops.kept k stale ▸ ready.1, fun device owed => ready.2 device ?_⟩
    exact (drops.owes k device).mpr ⟨owed, stale⟩

theorem queued (s : Store) (accountID : AccountID) (deviceID : DeviceID) (now : Time)
    (conversationID : ConversationID) (coordinatorDeviceID : DeviceID) : Progress .revoking s
      (s.queueMLSRevocation accountID deviceID now conversationID coordinatorDeviceID) := by
  rcases s.queue_ok accountID deviceID now conversationID coordinatorDeviceID with ⟨same, -⟩ | queues
  · rw [same]
    exact refl Move.revoking_forward
  refine quiet (fun k => ?_) (fun k completed => ?_) queues.grows ?_ fun settled k ready => ?_
  · by_cases here : k = (conversationID, deviceID)
    · rw [here, queues.free, queues.pending]
      rfl
    · rw [queues.other k here]
      exact Move.revoking_forward.refl _
  · by_cases here : k = (conversationID, deviceID)
    · rw [here] at completed
      exact absurd (queues.pending.symm.trans completed.2) (by decide)
    · exact completed.1 (queues.other k here ▸ completed.2)
  · rintro e pending completed
    exact absurd (pending.symm.trans completed) (by decide)
  · by_cases here : k = (conversationID, deviceID)
    · rw [here] at ready
      exact absurd (queues.pending.symm.trans ready.1) (by decide)
    · exact settled k ⟨queues.other k here ▸ ready.1, fun device owed =>
        ready.2 device (queues.keeps k device owed)⟩

theorem queueEach (keys : List (ConversationID × DeviceID)) :
    Progress .revoking s (s.queueEach accountID deviceID now keys) := by
  induction keys generalizing s with
  | nil => exact refl Move.revoking_forward
  | cons key rest ih =>
    exact trans Move.revoking_forward (queued s accountID deviceID now key.1 key.2) ih

theorem retired (s : Store) (accountID : AccountID) (deviceID : DeviceID) (now : Time) :
    Progress .revoking s (s.retireMLSDevice accountID deviceID now) :=
  trans Move.revoking_forward (queueEach _) (release Move.revoking_forward)

theorem ordinary (forward : moves.Forward) (quiet : Quiet s s') : Progress moves s s' := by
  refine frame forward (by rw [quiet.mls]) (by rw [quiet.mls]) quiet.grows ?_
  rintro e ⟨ordinary, -⟩ completed
  rw [completed] at ordinary
  exact absurd ordinary (by decide)

theorem revoked (s : Store) (accountID : AccountID) (deviceID : DeviceID) (now : Time) :
    Progress .revoking s (s.revoked accountID deviceID now) := by
  refine trans Move.revoking_forward (ordinary Move.revoking_forward ?_)
    (retired _ accountID deviceID now)
  have marked : Quiet s (s.markRevoked (fun d => d.id = deviceID ∧ d.accountID = accountID) now) :=
    ⟨rfl, rfl, rfl, .refl s.events⟩
  exact marked.trans (.of_calm (.event _ ⟨rfl, rfl⟩))

theorem recovered (recovered : s.Recovered now accountID middle s') : Progress .revoking s s' := by
  have forward := Move.revoking_forward
  refine trans forward ?_ (ordinary forward recovered.added.toQuiet)
  refine Store.revokeEach_preserves (fun each deviceID progress => ?_) recovered.revoked
    (ordinary forward ⟨rfl, rfl, rfl, .refl s.events⟩)
  exact trans forward progress (revoked each accountID deviceID now)

theorem deleted {retired : Store} (deleted : s.AccountDeleted now accountID retired s') :
    Progress .revoking s s' := by
  have forward := Move.revoking_forward
  obtain ⟨blobDeletions, rfl⟩ := deleted.retiring
  have start : Progress .revoking s ({ s with blobDeletions }.markRevoked (·.accountID = accountID) now) :=
    ordinary forward ⟨rfl, rfl, rfl, .refl s.events⟩
  refine trans forward (Store.retireEach_preserves (fun each deviceID progress => ?_) start)
    (ordinary forward ⟨deleted.mls, deleted.messages, deleted.pruneMarks, ?_⟩)
  · exact trans forward progress (Progress.retired each accountID deviceID now)
  · rw [deleted.events]
    exact .refl _

theorem stored (forward : moves.Forward) (revocations : s'.mls.revocations = s.mls.revocations)
    (required : s'.mls.requiredDevices = s.mls.requiredDevices)
    (grows : s.events.Grows SyncEvent.isMLSMessageNotice s'.events) : Progress moves s s' := by
  refine frame forward revocations required grows ?_
  rintro e ⟨notice, -⟩ completed
  exact absurd (notice.symm.trans completed) (by decide)

theorem created {base : Store} (created : s.createMLSGroup now input = .ok base) :
    Progress .committing s base := by
  obtain ⟨middle, recorded, rfl⟩ := Store.createMLSGroup_ok created
  refine trans Move.committing_forward ?_ (dropped middle input.conversationID)
  obtain ⟨_, _, rfl⟩ := recorded.frame
  exact stored Move.committing_forward rfl rfl (.refl _)

theorem written {epoch : ℕ} (written : s.writeCommit now newID input epoch = .ok (result, s')) :
    Progress .committing s s' := by
  obtain ⟨commit, welcomes, middle, writes, -, -, -, rfl⟩ := Store.writeCommit_ok written
  have isStored : Progress .committing s middle := by
    have grows := writes.grows
    obtain ⟨_, _, _, _, rfl⟩ := writes.frame
    exact stored Move.committing_forward rfl rfl grows
  refine trans Move.committing_forward isStored ?_
  refine trans Move.committing_forward ?_ (dropped _ input.conversationID)
  split
  · exact submitted _ _ _ _ _ _
  · exact refl Move.committing_forward

theorem bundle {limits : Limits} (outcome : Store.BundleOutcome limits s now newID input result s') :
    Progress .committing s s' :=
  outcome.induct (refl Move.committing_forward) (fun _ _ isCreated => created isCreated)
    fun _ _ _ _ _ placed isWritten => trans Move.committing_forward placed (written isWritten)

theorem single {id : MLSMessageID} {input : CreateMLSMessageInput} {result : CreateMLSMessageResult}
    (outcome : s.MessageOutcome now id input result s') : Progress .committing s s' := by
  cases outcome with
  | replayed => exact refl Move.committing_forward
  | @stored _ message middle _ _ _ storing _ after =>
    have isStored : Progress .committing s middle := by
      have grows := storing.grows
      obtain ⟨_, _, rfl⟩ := storing.frame
      exact Progress.stored Move.committing_forward rfl rfl grows
    rw [after]
    split
    · exact trans Move.committing_forward isStored (submitted _ _ _ _ _ _)
    · exact isStored

end Progress

namespace Exact

variable {limits : Limits} {s' : Store} {call : Call} {given : Answer}

theorem weaken {moves more : Move} (steps : Exact moves s s')
    (weaker : ∀ before after, moves before after → more before after) : Exact more s s' :=
  { steps with moved := fun k => weaker _ _ (steps.moved k) }

/-- A call that leaves the revocation tables and appends no completed event. -/
theorem still (revocations : s'.mls.revocations = s.mls.revocations)
    (required : s'.mls.requiredDevices = s.mls.requiredDevices)
    (silent : ∀ e ∈ s'.events, s.events.last < e.id → e.eventType ≠ .mlsRevocationCompleted) :
    Exact .advance s s' := by
  have same := Store.revocationState_congr revocations
  refine ⟨fun k => ?_, fun k completed => ?_, fun k _ e recorded => ?_, fun settled k ready => ?_⟩
  · rw [same]
    exact Move.advance_of_revoking (Move.revoking_forward.refl _)
  · exact absurd (same k ▸ completed.2) completed.1
  · exact silent e recorded.1 recorded.2.1 recorded.2.2.1
  · exact settled k ⟨same k ▸ ready.1, fun device owed =>
      ready.2 device ((Store.owes_congr required).mpr owed)⟩

theorem of_step (ok : step limits s call = .ok (given, s')) : Exact .advance s s' := by
  have revoking : Progress .revoking s s' → Exact .advance s s' := fun progress =>
    progress.toExact.weaken fun _ _ => Move.advance_of_revoking
  have committing : Progress .committing s s' → Exact .advance s s' := fun progress =>
    progress.toExact.weaken fun _ _ => Move.advance_of_committing
  cases effect_of_step ok with
  | harmless _ harmless => exact revoking (.ordinary Move.revoking_forward harmless.toQuiet)
  | removed quiet => exact revoking (.ordinary Move.revoking_forward quiet)
  | marked => exact revoking (.ordinary Move.revoking_forward ⟨rfl, rfl, rfl, .refl s.events⟩)
  | revoked => exact revoking (.revoked s _ _ _)
  | recovered isRecovered => exact revoking (.recovered isRecovered)
  | deleted isDeleted => exact revoking (.deleted isDeleted)
  | bundle _ _ outcome => exact committing (.bundle outcome)
  | single _ outcome => exact committing (.single outcome)
  | confirmed isConfirmed => exact committing (.confirmed isConfirmed)
  | message _ writes =>
    refine still (by rw [writes.mls]) (by rw [writes.mls]) fun e mem above completed => ?_
    rcases writes.events.fresh e mem with ⟨old, oldMember, rewritten⟩ | ⟨-, envelope⟩
    · rw [rewritten.id] at above
      exact absurd (s.events.bounded old oldMember) (Nat.not_le.mpr above)
    · rw [completed] at envelope
      exact absurd envelope (by decide)
  | pruned isPruned =>
    have pruned := Store.pruneSyncEventsBatch_ok isPruned
    have kept := pruned.events
    obtain ⟨_, _, _, rfl⟩ := pruned.frame
    refine still rfl rfl fun e mem above _ => ?_
    exact absurd (s.events.bounded e ((kept e).mp mem).1) (Nat.not_le.mpr above)

/-- A refused call changes nothing. -/
theorem of_serve (limits : Limits) (s : Store) (call : Call) :
    Exact .advance s (serve (step limits) s call).after := by
  cases outcome : step limits s call with
  | ok answered =>
    rw [serve_of_ok outcome]
    exact of_step outcome
  | error refusal =>
    rw [serve_of_error outcome]
    exact still rfl rfl fun e mem above _ => absurd (s.events.bounded e mem) (Nat.not_le.mpr above)

end Exact

/-- The call recorded a completed event of the revocation. -/
def Records (k : RevocationKey) (entry : Entry) : Prop := ∃ e, NewlyRecorded k entry.before entry.after e

theorem completed_stays {s' : Store} (steps : Exact .advance s s')
    (completed : s.revocationState k = some .completed) :
    s'.revocationState k = some .completed := by
  have moved := steps.moved k
  rw [completed] at moved
  revert moved
  rcases s'.revocationState k with _ | _ | _ | _ <;> decide

/-- What recorded the event also completed the revocation, so no later call records it again. -/
theorem records_once {limits : Limits} {history : List Entry} (run : ServerRun limits history s)
    (k : RevocationKey) :
    (history.Pairwise fun earlier later => ¬ (Records k earlier ∧ Records k later)) ∧
      ((∃ entry ∈ history, Records k entry) → s.revocationState k = some .completed) := by
  induction run with
  | start => exact ⟨.nil, fun ⟨_, mem, _⟩ => absurd mem List.not_mem_nil⟩
  | @call history s next run _ ih =>
    have steps := Exact.of_serve limits s next
    have records : Records k (serve (step limits) s next) → s.completedSince (serve (step limits) s next).after k := by
      rintro ⟨e, recorded⟩
      rw [serve_before] at recorded
      by_contra unfinished
      exact steps.silent k unfinished e recorded
    refine ⟨List.pairwise_append.mpr ⟨ih.1, List.pairwise_singleton _ _, ?_⟩, ?_⟩
    · rintro earlier old later fresh ⟨early, late⟩
      rw [List.mem_singleton.mp fresh] at late
      exact (records late).1 (ih.2 ⟨earlier, old, early⟩)
    · rintro ⟨entry, mem, recorded⟩
      rcases List.mem_append.mp mem with old | fresh
      · exact completed_stays steps (ih.2 ⟨entry, old, recorded⟩)
      · rw [List.mem_singleton.mp fresh] at recorded
        exact (records recorded).2

/-- In every run, each call moves each revocation only from pending to commit submitted to completed,
records its completed event exactly when it completes it, and never a second time; and each
commit-submitted revocation of the state reached still waits for a required device. -/
theorem revocation_completion_exact {limits : Limits} {history : List Entry} {s : Store}
    (run : ServerRun limits history s) :
    (∀ entry ∈ history, ∀ k,
      Move.advance (entry.before.revocationState k) (entry.after.revocationState k) ∧
      (entry.before.completedSince entry.after k → ∃! e, NewlyRecorded k entry.before entry.after e) ∧
      (¬ entry.before.completedSince entry.after k → ¬ Records k entry)) ∧
    (∀ k, history.Pairwise fun earlier later => ¬ (Records k earlier ∧ Records k later)) ∧
    ∀ r ∈ s.mls.revocations, r.state = .commitSubmitted →
      ∃ row ∈ s.mls.requiredDevices, row.revocation = r.key ∧ row.confirmedAt = none := by
  refine ⟨fun entry member k => ?_, fun k => (records_once run k).1, fun r member submitted => ?_⟩
  · obtain ⟨_, -, -, served⟩ := run.reaches_before member
    have steps := Exact.of_serve limits entry.before entry.call
    rw [← served] at steps
    exact ⟨steps.moved k, steps.recorded k, fun unfinished ⟨e, recorded⟩ =>
      steps.silent k unfinished e recorded⟩
  · have settled : s.settled := by
      refine run.preserves Store.settled ?_ fun _ _ _ _ _ settled ok =>
        (Exact.of_step ok).settled settled
      rintro k ⟨state, -⟩
      cases state
    by_contra nobody
    refine settled r.key ⟨submitted ▸ Store.revocationState_of_mem member, ?_⟩
    rintro device ⟨row, required, belongs, -, waiting⟩
    exact nobody ⟨row, required, belongs, waiting⟩

open Example in
/-- Carol's confirmation completes the removal of Bob's device and records the one event of it. -/
theorem revocation_completion_exact_carol :
    ∃ history s, ServerRun limits history s ∧ ∃ entry ∈ history,
      entry.before.revocationState ("room", "bob-phone") = some .commitSubmitted ∧
      entry.after.revocationState ("room", "bob-phone") = some .completed ∧
      ∃! e, NewlyRecorded ("room", "bob-phone") entry.before entry.after e := by
  have run := run_exec (step limits) Store.init
    (bobRemoved ++ [.confirmMLSRevocation 5 "room" "bob-phone" carol "carol-phone"])
  have completing : ∃ entry ∈ execHistory (step limits) Store.init
      (bobRemoved ++ [.confirmMLSRevocation 5 "room" "bob-phone" carol "carol-phone"]),
      entry.before.revocationState ("room", "bob-phone") = some .commitSubmitted ∧
      entry.after.revocationState ("room", "bob-phone") = some .completed := by decide +kernel
  obtain ⟨entry, member, submitted, completed⟩ := completing
  refine ⟨_, _, run, entry, member, submitted, completed, ?_⟩
  refine ((revocation_completion_exact run).1 entry member ("room", "bob-phone")).2.1 ⟨?_, completed⟩
  rw [submitted]
  decide

end Veritra.Storage
