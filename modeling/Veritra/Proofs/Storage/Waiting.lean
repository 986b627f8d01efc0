import Veritra.Proofs.Storage.BundleOutcome

/-! # What a revocation waits for

The two revocation tables are read through two functions: the state of a revocation, and which
devices still owe it a confirmation. Every operation of the revocation store is described by what
it does to these two, and the proofs about revocations use nothing else of the tables.
-/

namespace Veritra.Storage

open Relational Machine

variable {row : RequiredDevice} {p : RequiredDevice → Prop}

/-- A revocation is named by its conversation and the revoked device. -/
abbrev RevocationKey := ConversationID × DeviceID

namespace Store

def revocationState (s : Store) (k : RevocationKey) : Option RevocationState :=
  (s.mls.revocations.find? k).map (·.state)

/-- The device has not confirmed the revocation and is required to. -/
def owes (s : Store) (k : RevocationKey) (deviceID : DeviceID) : Prop :=
  ∃ row ∈ s.mls.requiredDevices, row.revocation = k ∧ row.deviceID = deviceID ∧ row.confirmedAt = none

/-- Every required device belongs to a revocation, as the foreign key of the table demands. -/
def rowsBelong (s : Store) : Prop :=
  ∀ row ∈ s.mls.requiredDevices, s.revocationState row.revocation ≠ none

variable {s s' : Store} {k : RevocationKey} {conversationID : ConversationID}
  {revokedDeviceID deviceID : DeviceID} {now : Time}

theorem revocationState_eq_some {state : RevocationState} :
    s.revocationState k = some state ↔ ∃ r ∈ s.mls.revocations, r.key = k ∧ r.state = state := by
  simp only [revocationState, Option.map_eq_some_iff, Table.find?_eq_some, and_assoc]

theorem revocationState_of_mem {r : MLSRevocation} (mem : r ∈ s.mls.revocations) :
    s.revocationState r.key = some r.state :=
  revocationState_eq_some.mpr ⟨r, mem, rfl, rfl⟩

theorem revocationState_congr (same : s'.mls.revocations = s.mls.revocations) (k : RevocationKey) :
    s'.revocationState k = s.revocationState k := by
  simp only [revocationState, same]

theorem revocationState_update (s : Store) (k : RevocationKey) {p : MLSRevocation → Prop}
    [DecidablePred p] {change : MLSRevocation → MLSRevocation} {keeps : ∀ r, (change r).key = r.key} :
    ((s.mls.revocations.update p change keeps).find? k).map (·.state) =
      (s.mls.revocations.find? k).map fun r => if p r then (change r).state else r.state := by
  rw [Table.find?_update, Option.map_map]
  congr 1
  funext r
  exact apply_ite MLSRevocation.state _ _ _

theorem owes_congr (same : s'.mls.requiredDevices = s.mls.requiredDevices) :
    s'.owes k deviceID ↔ s.owes k deviceID := by
  simp only [owes, same]

theorem unconfirmed_iff : s.unconfirmed conversationID revokedDeviceID ↔
      ∃ deviceID, s.owes (conversationID, revokedDeviceID) deviceID := by
  constructor
  · rintro ⟨row, mem, rfl, rfl, waiting⟩
    exact ⟨row.deviceID, row, mem, rfl, rfl, waiting⟩
  · rintro ⟨_, row, mem, same, -, waiting⟩
    exact ⟨row, mem, congrArg Prod.fst same, congrArg Prod.snd same, waiting⟩

theorem commitSubmitted_iff : s.commitSubmitted conversationID revokedDeviceID ↔
      s.revocationState (conversationID, revokedDeviceID) = some .commitSubmitted := by
  rw [revocationState_eq_some]
  constructor
  · rintro ⟨r, mem, rfl, rfl, state⟩
    exact ⟨r, mem, rfl, state⟩
  · rintro ⟨r, mem, same, state⟩
    exact ⟨r, mem, congrArg Prod.fst same, congrArg Prod.snd same, state⟩

/-- The commit is in and nobody owes a confirmation. -/
def readyToComplete (s : Store) (k : RevocationKey) : Prop :=
  s.revocationState k = some .commitSubmitted ∧ ∀ deviceID, ¬ s.owes k deviceID

theorem readyToComplete_iff : s.readyToComplete (conversationID, revokedDeviceID) ↔
    s.commitSubmitted conversationID revokedDeviceID ∧ ¬ s.unconfirmed conversationID revokedDeviceID := by
  rw [readyToComplete, commitSubmitted_iff, unconfirmed_iff, not_exists]

end Store

def SyncEvent.isCompletedNotice (k : RevocationKey) (e : SyncEvent) : Prop :=
  e.eventType = .mlsRevocationCompleted ∧ e.conversationID = some k.1 ∧
    ∃ accountID, e.payload = .mlsRevocation k.2 accountID

/-- An event names one revocation. -/
theorem SyncEvent.isCompletedNotice.unique {k k' : RevocationKey} {e : SyncEvent}
    (notice : e.isCompletedNotice k) (other : e.isCompletedNotice k') : k = k' := by
  obtain ⟨-, conversation, _, payload⟩ := notice
  obtain ⟨-, otherConversation, _, otherPayload⟩ := other
  refine Prod.ext (Option.some.inj (conversation.symm.trans otherConversation)) ?_
  rw [payload] at otherPayload
  injection otherPayload

/-- The event was appended since `s` and announces the completion of `k`. -/
def NewlyRecorded (k : RevocationKey) (s s' : Store) (e : SyncEvent) : Prop :=
  e ∈ s'.events ∧ s.events.last < e.id ∧ e.isCompletedNotice k

/-- Those of the listed revocations that were ready are completed, each with one event, and nothing
else changed. -/
structure Completes (keys : RevocationKey → Prop) (s s' : Store) : Prop where
  writes : RevocationWrites s s'
  required : s'.mls.requiredDevices = s.mls.requiredDevices
  done : ∀ k, keys k → s.readyToComplete k → s'.revocationState k = some .completed
  other : ∀ k, ¬ (keys k ∧ s.readyToComplete k) → s'.revocationState k = s.revocationState k
  grows : s.events.Grows (fun e => ∃ k, keys k ∧ s.readyToComplete k ∧ e.isCompletedNotice k) s'.events
  recorded : ∀ k, keys k → s.readyToComplete k → ∃! e, NewlyRecorded k s s' e

namespace Completes

variable {keys more : RevocationKey → Prop} {s s' s'' : Store} {k : RevocationKey} {deviceID : DeviceID}

theorem owes (completes : Completes keys s s') : s'.owes k deviceID ↔ s.owes k deviceID :=
  Store.owes_congr completes.required

theorem refl (none_ready : ∀ k, keys k → ¬ s.readyToComplete k) : Completes keys s s where
  writes := .refl s
  required := rfl
  done k listed ready := absurd ready (none_ready k listed)
  other _ _ := rfl
  grows := .refl _
  recorded k listed ready := absurd ready (none_ready k listed)

/-- A revocation that is completed is not ready a second time. -/
theorem not_ready (completes : Completes keys s s') (listed : keys k) (ready : s.readyToComplete k) :
    ¬ s'.readyToComplete k := by
  intro again
  have done := completes.done k listed ready
  rw [again.1] at done
  cases done

theorem ready_iff (completes : Completes keys s s') :
    s'.readyToComplete k ↔ s.readyToComplete k ∧ ¬ keys k := by
  by_cases hit : keys k ∧ s.readyToComplete k
  · exact ⟨fun again => absurd again (completes.not_ready hit.1 hit.2), fun miss => absurd hit.1 miss.2⟩
  · simp only [Store.readyToComplete, completes.other k hit, completes.owes]
    exact ⟨fun ready => ⟨ready, fun listed => hit ⟨listed, ready⟩⟩, And.left⟩

theorem trans (first : Completes keys s s') (second : Completes more s' s'') :
    Completes (fun k => keys k ∨ more k) s s'' where
  writes := first.writes.trans second.writes
  required := second.required.trans first.required
  done k listed ready := by
    by_cases here : keys k
    · rw [second.other k fun hit => first.not_ready here ready hit.2]
      exact first.done k here ready
    · exact second.done k (listed.resolve_left here) (first.ready_iff.mpr ⟨ready, here⟩)
  other k miss := by
    have missFirst : ¬ (keys k ∧ s.readyToComplete k) := fun hit => miss ⟨.inl hit.1, hit.2⟩
    rw [second.other k fun hit => miss ⟨.inr hit.1, (first.ready_iff.mp hit.2).1⟩]
    exact first.other k missFirst
  grows := by
    refine (first.grows.mono ?_).trans (second.grows.mono ?_)
    · rintro e ⟨k, listed, ready, notice⟩
      exact ⟨k, .inl listed, ready, notice⟩
    · rintro e ⟨k, listed, ready, notice⟩
      exact ⟨k, .inr listed, (first.ready_iff.mp ready).1, notice⟩
  recorded k listed ready := by
    by_cases here : keys k
    · -- The first part recorded the event, and the second one completes other revocations.
      obtain ⟨e, ⟨mem, above, notice⟩, unique⟩ := first.recorded k here ready
      refine ⟨e, ⟨second.grows.keeps e mem, above, notice⟩, ?_⟩
      rintro other ⟨otherMember, otherAbove, otherNotice⟩
      rcases second.grows.fresh other otherMember with old | ⟨-, k', -, ready', notice'⟩
      · exact unique other ⟨old, otherAbove, otherNotice⟩
      · rw [otherNotice.unique notice'] at here
        exact absurd here (first.ready_iff.mp ready').2
    · obtain ⟨e, ⟨mem, above, notice⟩, unique⟩ :=
        second.recorded k (listed.resolve_left here) (first.ready_iff.mpr ⟨ready, here⟩)
      refine ⟨e, ⟨mem, Nat.lt_of_le_of_lt first.grows.last_le above, notice⟩, ?_⟩
      rintro other ⟨otherMember, otherAbove, otherNotice⟩
      rcases second.grows.fresh other otherMember with old | ⟨otherLate, -⟩
      · rcases first.grows.fresh other old with older | ⟨-, k', listed', -, notice'⟩
        · exact absurd (s.events.bounded other older) (Nat.not_le.mpr otherAbove)
        · rw [otherNotice.unique notice'] at here
          exact absurd listed' here
      · exact unique other ⟨otherMember, otherLate, otherNotice⟩

theorem mono (completes : Completes keys s s') (same : ∀ k, keys k ↔ more k) : Completes more s s' := by
  have equal : keys = more := funext fun k => propext (same k)
  exact equal ▸ completes

end Completes

namespace Store

variable {s s' : Store} {k : RevocationKey} {conversationID : ConversationID}
  {revokedDeviceID deviceID : DeviceID} {now : Time}

theorem complete_completes (s : Store) (conversationID : ConversationID) (revokedDeviceID : DeviceID)
    (now : Time) : Completes (· = (conversationID, revokedDeviceID)) s
      (s.completeMLSRevocationIfConfirmed conversationID revokedDeviceID now).2 := by
  unfold completeMLSRevocationIfConfirmed
  split
  · next waiting =>
    refine .refl ?_
    rintro k rfl ready
    exact (readyToComplete_iff.mp ready).2 waiting
  · next settled =>
    split
    · next submitted =>
      have states : ∀ k, ((s.mls.revocations.update (fun r => r.conversationID = conversationID ∧
          r.revokedDeviceID = revokedDeviceID ∧ r.state = .commitSubmitted)
          fun r => { r with state := .completed, completedAt := some now }).find? k).map (·.state) =
          (s.mls.revocations.find? k).map fun r => if r.conversationID = conversationID ∧
            r.revokedDeviceID = revokedDeviceID ∧ r.state = .commitSubmitted then .completed else r.state :=
        fun k => revocationState_update s k
      have writes := s.completeMLSRevocationIfConfirmed_writes conversationID revokedDeviceID now
      rw [completeMLSRevocationIfConfirmed, if_neg settled, if_pos submitted] at writes
      refine ⟨writes, rfl, ?_, ?_, ?_, ?_⟩
      · rintro k rfl ⟨state, -⟩
        refine (states _).trans ?_
        obtain ⟨r, mem, same, isSubmitted⟩ := revocationState_eq_some.mp state
        rw [Table.find?_eq_some.mpr ⟨mem, same⟩, Option.map_some,
          if_pos ⟨congrArg Prod.fst same, congrArg Prod.snd same, isSubmitted⟩]
      · intro k miss
        refine (states k).trans ?_
        unfold revocationState
        cases found : s.mls.revocations.find? k with
        | none => rfl
        | some r =>
          obtain ⟨mem, rfl⟩ := Table.find?_eq_some.mp found
          rw [Option.map_some, Option.map_some, if_neg]
          rintro ⟨here, device, -⟩
          refine miss ⟨Prod.ext here device, ?_⟩
          rw [show r.key = (conversationID, revokedDeviceID) from Prod.ext here device]
          exact readyToComplete_iff.mpr ⟨submitted, settled⟩
      · refine insertSyncEvent_grows _ ⟨(conversationID, revokedDeviceID), rfl,
          readyToComplete_iff.mpr ⟨submitted, settled⟩, rfl, rfl, none, rfl⟩
      · rintro k rfl -
        refine ⟨_, ⟨Log.mem_append.mpr (.inr rfl), Nat.lt_succ_self _, rfl, rfl, none, rfl⟩, ?_⟩
        rintro other ⟨mem, above, -⟩
        rcases Log.mem_append.mp mem with old | rfl
        · exact absurd (s.events.bounded other old) (Nat.not_le.mpr above)
        · rfl
    · next notSubmitted =>
      refine .refl ?_
      rintro k rfl ready
      exact notSubmitted (readyToComplete_iff.mp ready).1

theorem completeEach_completes (s : Store) (now : Time) (keys : List RevocationKey) :
    Completes (· ∈ keys) s (s.completeEach now keys) := by
  induction keys generalizing s with
  | nil => exact .refl nofun
  | cons key rest ih =>
    refine ((s.complete_completes key.1 key.2 now).trans (ih _)).mono fun k => ?_
    rw [List.mem_cons]

/-- The devices that still owe a confirmation are those whose rows were not selected. -/
theorem confirmRequired_owes [DecidablePred p] : (s.confirmRequired p now).owes k deviceID ↔
      ∃ row ∈ s.mls.requiredDevices, row.revocation = k ∧ row.deviceID = deviceID ∧
        row.confirmedAt = none ∧ ¬ p row := by
  simp only [owes, confirmRequired]
  constructor
  · rintro ⟨row, mem, here, device, waiting⟩
    rcases Table.mem_update.mp mem with ⟨old, miss⟩ | ⟨old, oldMember, hit, rfl⟩
    · exact ⟨row, old, here, device, waiting, miss⟩
    · cases waiting
  · rintro ⟨row, mem, here, device, waiting, miss⟩
    exact ⟨row, Table.mem_update.mpr (.inl ⟨mem, miss⟩), here, device, waiting⟩

theorem confirmRequired_required [DecidablePred p]
    (mem : row ∈ (s.confirmRequired p now).mls.requiredDevices) :
    ∃ old ∈ s.mls.requiredDevices, row.revocation = old.revocation := by
  simp only [confirmRequired] at mem
  rcases Table.mem_update.mp mem with ⟨old, -⟩ | ⟨old, oldMember, -, rfl⟩
  · exact ⟨row, old, rfl⟩
  · exact ⟨old, oldMember, rfl⟩

end Store

/-- The confirmations that `waived` selects are no longer owed, and nothing else changed. -/
structure Waives (waived : RevocationKey → DeviceID → Prop) (s s' : Store) : Prop where
  writes : RevocationWrites s s'
  owes : ∀ k deviceID, s'.owes k deviceID ↔ s.owes k deviceID ∧ ¬ waived k deviceID
  required : ∀ row ∈ s'.mls.requiredDevices, ∃ old ∈ s.mls.requiredDevices, row.revocation = old.revocation
  state : ∀ k, s'.revocationState k = s.revocationState k
  events : s'.events = s.events

namespace Store

variable {conversationID : ConversationID} {revokedDeviceID : DeviceID} {s : Store}

theorem confirmRequired_waives (s : Store) [DecidablePred p] (now : Time)
    (waived : RevocationKey → DeviceID → Prop)
    (selects : ∀ row : RequiredDevice, row.confirmedAt = none → (p row ↔ waived row.revocation row.deviceID)) :
    Waives waived s (s.confirmRequired p now) where
  writes := s.confirmRequired_writes p now
  owes k deviceID := by
    rw [confirmRequired_owes]
    constructor
    · rintro ⟨row, mem, rfl, rfl, waiting, miss⟩
      exact ⟨⟨row, mem, rfl, rfl, waiting⟩, fun hit => miss ((selects row waiting).mpr hit)⟩
    · rintro ⟨⟨row, mem, rfl, rfl, waiting⟩, miss⟩
      exact ⟨row, mem, rfl, rfl, waiting, fun hit => miss ((selects row waiting).mp hit)⟩
  required _ := confirmRequired_required
  state _ := rfl
  events := rfl

/-- A released device owes nothing, and what waited for it alone is completed. -/
theorem release_ok (s : Store) (deviceID : DeviceID) (now : Time) :
    ∃ middle, Waives (fun _ device => device = deviceID) s middle ∧
      Completes (fun k => s.owes k deviceID) middle (s.releaseMLSRevocationConfirmations deviceID now) := by
  refine ⟨_, s.confirmRequired_waives now _ ?_, (completeEach_completes _ now _).mono fun k => ?_⟩
  · intro row waiting
    exact ⟨And.left, fun same => ⟨same, waiting⟩⟩
  · simp only [List.mem_insertionSort, List.mem_map, List.mem_filter, decide_eq_true_eq]
    constructor
    · rintro ⟨row, ⟨mem, device, waiting⟩, rfl⟩
      exact ⟨row, mem, rfl, device, waiting⟩
    · rintro ⟨row, mem, rfl, device, waiting⟩
      exact ⟨row, ⟨mem, device, waiting⟩, rfl⟩

private theorem revocation_eq : row.revocation = (conversationID, revokedDeviceID) ↔
      row.conversationID = conversationID ∧ row.revokedDeviceID = revokedDeviceID := by
  simp [RequiredDevice.revocation, Prod.ext_iff]

/-- A committed confirmation repeats an earlier one, or settles what the device owed. -/
theorem confirm_ok {s' : Store} {now : Time} {accountID : AccountID} {deviceID : DeviceID}
    {eventID : EventID}
    (confirmed : s.confirmMLSRevocation now conversationID revokedDeviceID accountID deviceID = .ok (eventID, s')) :
    s' = s ∨ ∃ middle,
      Waives (fun k device => k = (conversationID, revokedDeviceID) ∧ device = deviceID) s middle ∧
      Completes (· = (conversationID, revokedDeviceID)) middle s' := by
  unfold confirmMLSRevocation at confirmed
  split at confirmed
  · obtain rfl := congrArg Prod.snd (Except.ok.inj confirmed)
    refine .inr ⟨_, s.confirmRequired_waives now _ ?_, complete_completes _ _ _ now⟩
    intro row waiting
    rw [revocation_eq]
    tauto
  · split at confirmed
    · cases confirmed
      exact .inl rfl
    · cases confirmed

/-- The pending revocation's commit is in, and its sender counts as confirmed. -/
structure Submits (k : RevocationKey) (senderDeviceID : DeviceID) (s s' : Store) : Prop where
  writes : RevocationWrites s s'
  owes : ∀ k' deviceID, s'.owes k' deviceID ↔ s.owes k' deviceID ∧ ¬ (k' = k ∧ deviceID = senderDeviceID)
  required : ∀ row ∈ s'.mls.requiredDevices, ∃ old ∈ s.mls.requiredDevices, row.revocation = old.revocation
  submitted : s.revocationState k = some .pending → s'.revocationState k = some .commitSubmitted
  other : ∀ k', ¬ (k' = k ∧ s.revocationState k' = some .pending) → s'.revocationState k' = s.revocationState k'
  events : s'.events = s.events

theorem submit_ok (s : Store) (conversationID : ConversationID) (revokedDeviceID : DeviceID)
    (commitMessageID : MLSMessageID) (senderDeviceID : DeviceID) (now : Time) :
    ∃ middle, Submits (conversationID, revokedDeviceID) senderDeviceID s middle ∧
      Completes (· = (conversationID, revokedDeviceID)) middle
        (s.submitRevocation conversationID revokedDeviceID commitMessageID senderDeviceID now).2 := by
  refine ⟨_, ?_, complete_completes _ _ _ now⟩
  have states : ∀ k, ((s.mls.revocations.update (fun r => r.conversationID = conversationID ∧
      r.revokedDeviceID = revokedDeviceID ∧ r.state = .pending)
      fun r => { r with state := .commitSubmitted, commitMessageID := some commitMessageID }).find? k).map
        (·.state) = (s.mls.revocations.find? k).map fun r => if r.conversationID = conversationID ∧
          r.revokedDeviceID = revokedDeviceID ∧ r.state = .pending then .commitSubmitted else r.state :=
    fun k => revocationState_update s k
  refine ⟨(RevocationWrites.tables s _ s.mls.requiredDevices).trans (confirmRequired_writes _ _ now), ?_,
    fun _ => confirmRequired_required, ?_, ?_, rfl⟩
  · intro k' deviceID
    refine (confirmRequired_waives _ now (fun k device =>
      k = (conversationID, revokedDeviceID) ∧ device = senderDeviceID) ?_).owes k' deviceID
    intro row waiting
    rw [revocation_eq]
    tauto
  · intro pending
    refine (states _).trans ?_
    obtain ⟨r, mem, same, isPending⟩ := revocationState_eq_some.mp pending
    rw [Table.find?_eq_some.mpr ⟨mem, same⟩, Option.map_some,
      if_pos ⟨congrArg Prod.fst same, congrArg Prod.snd same, isPending⟩]
  · intro k' miss
    refine (states k').trans ?_
    unfold revocationState
    cases found : s.mls.revocations.find? k' with
    | none => rfl
    | some r =>
      obtain ⟨mem, rfl⟩ := Table.find?_eq_some.mp found
      rw [Option.map_some, Option.map_some, if_neg]
      rintro ⟨here, device, isPending⟩
      exact miss ⟨Prod.ext here device, isPending ▸ revocationState_of_mem mem⟩

/-- A pending revocation whose device is not on the recorded roster. -/
def isStale (s : Store) (conversationID : ConversationID) (k : RevocationKey) : Prop :=
  k.1 = conversationID ∧ s.revocationState k = some .pending ∧ s.hasMLSGroup k.1 ∧ ¬ s.activeMLSDevice k.1 k.2

/-- The stale revocations of a conversation are gone with their rows. -/
structure Drops (conversationID : ConversationID) (s s' : Store) : Prop where
  writes : RevocationWrites s s'
  owes : ∀ k deviceID, s'.owes k deviceID ↔ s.owes k deviceID ∧ ¬ s.isStale conversationID k
  required : ∀ row ∈ s'.mls.requiredDevices, row ∈ s.mls.requiredDevices ∧ ¬ s.isStale conversationID row.revocation
  dropped : ∀ k, s.isStale conversationID k → s'.revocationState k = none
  kept : ∀ k, ¬ s.isStale conversationID k → s'.revocationState k = s.revocationState k

private theorem isStale_iff {k : RevocationKey} :
    s.isStale conversationID k ↔ ∃ r ∈ s.mls.revocations, (r.conversationID = conversationID ∧
      r.state = .pending ∧ s.hasMLSGroup r.conversationID ∧
      ¬ s.activeMLSDevice r.conversationID r.revokedDeviceID) ∧ r.key = k := by
  constructor
  · rintro ⟨here, pending, group, inactive⟩
    obtain ⟨r, mem, rfl, isPending⟩ := revocationState_eq_some.mp pending
    exact ⟨r, mem, ⟨here, isPending, group, inactive⟩, rfl⟩
  · rintro ⟨r, mem, ⟨here, isPending, group, inactive⟩, rfl⟩
    exact ⟨here, isPending ▸ revocationState_of_mem mem, group, inactive⟩

theorem drop_ok (s : Store) (conversationID : ConversationID) :
    Drops conversationID s (s.dropStaleMLSRevocations conversationID) := by
  have rows : ∀ row, row ∈ (s.dropStaleMLSRevocations conversationID).mls.requiredDevices ↔
      row ∈ s.mls.requiredDevices ∧ ¬ s.isStale conversationID row.revocation := by
    intro row
    rw [isStale_iff]
    exact Table.mem_delete
  have states : ∀ k, (s.dropStaleMLSRevocations conversationID).revocationState k =
      ((s.mls.revocations.find? k).filter fun r => ¬ (r.conversationID = conversationID ∧
        r.state = .pending ∧ s.hasMLSGroup r.conversationID ∧
        ¬ s.activeMLSDevice r.conversationID r.revokedDeviceID)).map (·.state) :=
    fun k => congrArg (Option.map _) Table.find?_delete
  refine ⟨s.dropStaleMLSRevocations_writes conversationID, ?_, fun row => (rows row).mp, ?_, ?_⟩
  · intro k deviceID
    constructor
    · rintro ⟨row, mem, rfl, rfl, waiting⟩
      obtain ⟨old, fresh⟩ := (rows row).mp mem
      exact ⟨⟨row, old, rfl, rfl, waiting⟩, fresh⟩
    · rintro ⟨⟨row, mem, rfl, rfl, waiting⟩, fresh⟩
      exact ⟨row, (rows row).mpr ⟨mem, fresh⟩, rfl, rfl, waiting⟩
  · intro k stale
    obtain ⟨r, mem, hit, same⟩ := isStale_iff.mp stale
    rw [states, Table.find?_eq_some.mpr ⟨mem, same⟩, Option.filter_some, if_neg]
    · rfl
    · simpa using hit
  · intro k fresh
    rw [states]
    unfold revocationState
    cases found : s.mls.revocations.find? k with
    | none => rfl
    | some r =>
      obtain ⟨mem, rfl⟩ := Table.find?_eq_some.mp found
      rw [Option.filter_some, if_pos]
      have miss := fun hit => fresh (isStale_iff.mpr ⟨r, mem, hit, rfl⟩)
      exact decide_eq_true miss

/-- A revocation is queued with the devices that have to confirm it. -/
structure Queues (conversationID : ConversationID) (revokedDeviceID : DeviceID) (s s' : Store) : Prop where
  writes : RevocationWrites s s'
  free : s.revocationState (conversationID, revokedDeviceID) = none
  pending : s'.revocationState (conversationID, revokedDeviceID) = some .pending
  other : ∀ k ≠ (conversationID, revokedDeviceID), s'.revocationState k = s.revocationState k
  keeps : ∀ k deviceID, s.owes k deviceID → s'.owes k deviceID
  owes : ∀ k deviceID, s'.owes k deviceID → s.owes k deviceID ∨
    (k = (conversationID, revokedDeviceID) ∧ ∃ d ∈ s.requiredConfirmers conversationID revokedDeviceID, d.id = deviceID)
  required : ∀ row ∈ s'.mls.requiredDevices,
    row ∈ s.mls.requiredDevices ∨ row.revocation = (conversationID, revokedDeviceID)
  grows : s.events.Grows (·.eventType = .mlsRevocationPending) s'.events

private theorem mem_insertEach {confirmers : List Device}
    {table : Table RequiredDevice RequiredDevice.key} :
    (row ∈ table → row ∈ confirmers.foldl (fun table d => table.insertOrIgnore
      { conversationID, revokedDeviceID, deviceID := d.id, confirmedAt := none }) table) ∧
    (row ∈ confirmers.foldl (fun table d => table.insertOrIgnore
        { conversationID, revokedDeviceID, deviceID := d.id, confirmedAt := none }) table →
      row ∈ table ∨ (row.revocation = (conversationID, revokedDeviceID) ∧ ∃ d ∈ confirmers, d.id = row.deviceID)) := by
  induction confirmers generalizing table with
  | nil => exact ⟨fun mem => mem, .inl⟩
  | cons d rest ih =>
    refine ⟨fun mem => ih.1 (Table.mem_insertOrIgnore.mpr (.inl mem)), fun mem => ?_⟩
    rcases ih.2 mem with middle | ⟨here, confirmer, listed, same⟩
    · rcases Table.mem_insertOrIgnore.mp middle with old | ⟨rfl, -⟩
      · exact .inl old
      · exact .inr ⟨rfl, d, List.mem_cons_self, rfl⟩
    · exact .inr ⟨here, confirmer, List.mem_cons_of_mem _ listed, same⟩

theorem queue_ok (s : Store) (accountID : AccountID) (deviceID : DeviceID) (now : Time)
    (conversationID : ConversationID) (coordinatorDeviceID : DeviceID) :
    (s.queueMLSRevocation accountID deviceID now conversationID coordinatorDeviceID = s ∧
      s.revocationState (conversationID, deviceID) ≠ none) ∨
    Queues conversationID deviceID s
      (s.queueMLSRevocation accountID deviceID now conversationID coordinatorDeviceID) := by
  unfold queueMLSRevocation
  split
  · next taken =>
    obtain ⟨r, mem, same⟩ := Table.insert?_eq_none.mp taken
    have known := revocationState_of_mem mem
    rw [same] at known
    exact .inl ⟨rfl, fun missing => Option.some_ne_none _ (known.symm.trans missing)⟩
  · next revocations inserted =>
    have lookup : ∀ k, revocations.find? k = if (conversationID, deviceID) = k then _ else
        s.mls.revocations.find? k := fun k => Table.find?_of_insert? inserted
    have free := Table.free_of_insert? inserted
    refine .inr ⟨(RevocationWrites.tables s _ _).trans (.notice _ _ _ _ _ _ (.inl rfl)), ?_, ?_, ?_, ?_, ?_, ?_, ?_⟩
    · refine Option.map_eq_none_iff.mpr (Table.find?_eq_none.mpr ?_)
      exact fun r mem => free r mem
    · refine (congrArg (Option.map _) (lookup _)).trans ?_
      rw [if_pos rfl]
      rfl
    · intro k elsewhere
      refine (congrArg (Option.map _) (lookup k)).trans ?_
      rw [if_neg (Ne.symm elsewhere)]
      rfl
    · rintro k device ⟨row, mem, here, same, waiting⟩
      exact ⟨row, mem_insertEach.1 mem, here, same, waiting⟩
    · rintro k device ⟨row, mem, rfl, rfl, waiting⟩
      rcases mem_insertEach.2 mem with old | fresh
      · exact .inl ⟨row, old, rfl, rfl, waiting⟩
      · exact .inr fresh
    · intro row mem
      exact (mem_insertEach.2 mem).imp_right And.left
    · exact insertSyncEvent_grows _ rfl

end Store
end Veritra.Storage
