import Veritra.Model.Storage.Identity

/-! # What the revocation operations write

Queueing, confirming, completing and dropping revocations writes the two revocation tables and
appends events about revocations; every other table stays as it is. The relation is reflexive and
transitive, so an operation made of several such writes has it as well, and a proof about another
table takes the whole operation in one step.
-/

namespace Veritra.Storage

open Relational

theorem Store.insertSyncEvent_grows (s : Store) {P : SyncEvent → Prop} {eventType : EventType}
    {accountID : Option AccountID} {conversationID : Option ConversationID} {payload : Payload}
    {now : Time}
    (holds : P ⟨s.events.last + 1, eventType, accountID, none, conversationID, payload, now⟩) :
    s.events.Grows P (s.insertSyncEvent eventType accountID conversationID payload now).2.events := by
  simp only [insertSyncEvent]
  refine Log.Grows.append s.events ?_
  exact holds

/-- The event reports a pending or a completed revocation. -/
def SyncEvent.isRevocationNotice (e : SyncEvent) : Prop :=
  e.accountID = none ∧ e.deviceID = none ∧ e.conversationID ≠ none ∧
    (e.eventType = .mlsRevocationPending ∨ e.eventType = .mlsRevocationCompleted) ∧
    ∃ deviceID accountID, e.payload = .mlsRevocation deviceID accountID

/-- Only the revocation tables and the event log were written. -/
structure RevocationWrites (s s' : Store) : Prop where
  frame : ∃ revocations requiredDevices events,
    s' = { s with mls := { s.mls with revocations, requiredDevices }, events }
  grows : s.events.Grows SyncEvent.isRevocationNotice s'.events

namespace RevocationWrites

variable {s s' s'' : Store}

theorem refl (s : Store) : RevocationWrites s s := ⟨⟨_, _, _, rfl⟩, .refl _⟩

theorem trans (first : RevocationWrites s s') (second : RevocationWrites s' s'') :
    RevocationWrites s s'' := by
  obtain ⟨⟨_, _, _, rfl⟩, grows⟩ := first
  obtain ⟨⟨_, _, _, rfl⟩, grows'⟩ := second
  exact ⟨⟨_, _, _, rfl⟩, grows.trans grows'⟩

/-- A write of the two revocation tables alone. -/
theorem tables (s : Store) (revocations : Table MLSRevocation MLSRevocation.key)
    (requiredDevices : Table RequiredDevice RequiredDevice.key) :
    RevocationWrites s { s with mls := { s.mls with revocations, requiredDevices } } :=
  ⟨⟨_, _, _, rfl⟩, .refl _⟩

/-- The append of one revocation event. -/
theorem notice (s : Store) (eventType : EventType) (conversationID : ConversationID)
    (deviceID : DeviceID) (accountID : Option AccountID) (now : Time)
    (type : eventType = .mlsRevocationPending ∨ eventType = .mlsRevocationCompleted) :
    RevocationWrites s (s.insertSyncEvent eventType none (some conversationID)
      (.mlsRevocation deviceID accountID) now).2 where
  frame := ⟨_, _, _, rfl⟩
  grows := s.insertSyncEvent_grows
    ⟨rfl, rfl, Option.some_ne_none _, type, deviceID, accountID, rfl⟩

section Frame

variable (writes : RevocationWrites s s')
include writes

theorem groups : s'.mls.groups = s.mls.groups := by obtain ⟨⟨_, _, _, rfl⟩, -⟩ := writes; rfl
theorem roster : s'.mls.devices = s.mls.devices := by obtain ⟨⟨_, _, _, rfl⟩, -⟩ := writes; rfl
theorem mlsMessages : s'.mls.messages = s.mls.messages := by obtain ⟨⟨_, _, _, rfl⟩, -⟩ := writes; rfl
theorem devices : s'.devices = s.devices := by obtain ⟨⟨_, _, _, rfl⟩, -⟩ := writes; rfl
theorem memberships : s'.memberships = s.memberships := by obtain ⟨⟨_, _, _, rfl⟩, -⟩ := writes; rfl
theorem messages : s'.messages = s.messages := by obtain ⟨⟨_, _, _, rfl⟩, -⟩ := writes; rfl
theorem pruneMarks : s'.pruneMarks = s.pruneMarks := by obtain ⟨⟨_, _, _, rfl⟩, -⟩ := writes; rfl

end Frame
end RevocationWrites

namespace Store

variable (s : Store)

theorem completeMLSRevocationIfConfirmed_writes (conversationID : ConversationID)
    (revokedDeviceID : DeviceID) (now : Time) :
    RevocationWrites s (s.completeMLSRevocationIfConfirmed conversationID revokedDeviceID now).2 := by
  unfold completeMLSRevocationIfConfirmed
  split
  · exact .refl s
  · split
    · exact (RevocationWrites.tables s _ s.mls.requiredDevices).trans (.notice _ _ _ _ _ _ (.inr rfl))
    · exact .refl s

theorem confirmRequired_writes (p : RequiredDevice → Prop) [DecidablePred p] (now : Time) :
    RevocationWrites s (s.confirmRequired p now) :=
  .tables s s.mls.revocations _

theorem completeEach_writes (now : Time) (revocations : List (ConversationID × DeviceID)) :
    RevocationWrites s (s.completeEach now revocations) := by
  induction revocations generalizing s with
  | nil => exact .refl s
  | cons revocation rest ih =>
    exact (s.completeMLSRevocationIfConfirmed_writes revocation.1 revocation.2 now).trans (ih _)

theorem releaseMLSRevocationConfirmations_writes (deviceID : DeviceID) (now : Time) :
    RevocationWrites s (s.releaseMLSRevocationConfirmations deviceID now) :=
  (s.confirmRequired_writes _ now).trans (completeEach_writes _ now _)

theorem dropStaleMLSRevocations_writes (conversationID : ConversationID) :
    RevocationWrites s (s.dropStaleMLSRevocations conversationID) :=
  .tables s _ _

section

variable (accountID : AccountID) (deviceID : DeviceID) (now : Time)

theorem queueMLSRevocation_writes (conversationID : ConversationID) (coordinatorDeviceID : DeviceID) :
    RevocationWrites s (s.queueMLSRevocation accountID deviceID now conversationID
      coordinatorDeviceID) := by
  unfold queueMLSRevocation
  split
  · exact .refl s
  · exact (RevocationWrites.tables s _ _).trans (.notice _ _ _ _ _ _ (.inl rfl))

theorem queueEach_writes (pending : List (ConversationID × DeviceID)) :
    RevocationWrites s (s.queueEach accountID deviceID now pending) := by
  induction pending generalizing s with
  | nil => exact .refl s
  | cons item rest ih =>
    exact (s.queueMLSRevocation_writes accountID deviceID now item.1 item.2).trans (ih _)

theorem retireMLSDevice_writes : RevocationWrites s (s.retireMLSDevice accountID deviceID now) :=
  (s.queueEach_writes accountID deviceID now _).trans
    (releaseMLSRevocationConfirmations_writes _ deviceID now)

end

theorem retireEach_writes (accountID : AccountID) (now : Time) (deviceIDs : List DeviceID) :
    RevocationWrites s (s.retireEach accountID now deviceIDs) := by
  induction deviceIDs generalizing s with
  | nil => exact .refl s
  | cons deviceID rest ih => exact (s.retireMLSDevice_writes accountID deviceID now).trans (ih _)

end Store
end Veritra.Storage
