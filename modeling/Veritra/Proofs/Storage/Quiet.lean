import Veritra.Model.Storage.Server

/-! # Operations outside the MLS state

Most operations of the store write neither the MLS tables nor the message envelopes. They may add
devices and members, and append events, but none of the events carries an envelope or reports
about a group. This is one relation, with a proof for each of these operations, so that an
invariant of the MLS state or of the envelopes handles all of them at once.
-/

namespace Veritra.Storage

open Relational Machine

variable {eventType : EventType} {payload : Payload} {now : Time}

/-- The types of events that report neither about a group nor about an envelope. -/
def EventType.isOrdinary (type : EventType) : Bool :=
  type ≠ mlsMessageCreated && type ≠ mlsRevocationPending && type ≠ mlsRevocationCompleted &&
    !type.isMessageEnvelope

/-- The event carries no envelope and is not about an MLS message or a revocation. -/
def SyncEvent.isOrdinary (e : SyncEvent) : Prop :=
  e.eventType.isOrdinary ∧ e.payload.envelope = none

/-- The MLS tables, the envelopes and the prune marks are unchanged. -/
structure Quiet (s s' : Store) : Prop where
  mls : s'.mls = s.mls
  messages : s'.messages = s.messages
  pruneMarks : s'.pruneMarks = s.pruneMarks
  grows : s.events.Grows SyncEvent.isOrdinary s'.events

/-- The devices of `s` are in `s'` as they were. -/
def KeepsDevices (s s' : Store) : Prop := ∀ d ∈ s.devices, d ∈ s'.devices

/-- The members of each conversation are still its members. -/
def KeepsMembers (s s' : Store) : Prop :=
  ∀ conversationID accountID, s.isConversationMember conversationID accountID →
    s'.isConversationMember conversationID accountID

/-- A quiet operation that takes no device and no member away. -/
structure Harmless (s s' : Store) : Prop extends Quiet s s' where
  devices : KeepsDevices s s'
  members : KeepsMembers s s'

/-- The attachments, their message links and the blob deletion queue are unchanged. -/
structure SameBlobs (s s' : Store) : Prop where
  attachments : s'.attachments = s.attachments
  messageAttachments : s'.messageAttachments = s.messageAttachments
  blobDeletions : s'.blobDeletions = s.blobDeletions

/-- A harmless operation that leaves the stored blobs alone as well. -/
structure Calm (s s' : Store) : Prop extends Harmless s s' where
  blobs : SameBlobs s s'

namespace SameBlobs

variable {s s' s'' : Store}

theorem refl : SameBlobs s s := ⟨rfl, rfl, rfl⟩

theorem trans (first : SameBlobs s s') (second : SameBlobs s' s'') : SameBlobs s s'' where
  attachments := second.attachments.trans first.attachments
  messageAttachments := second.messageAttachments.trans first.messageAttachments
  blobDeletions := second.blobDeletions.trans first.blobDeletions

end SameBlobs

namespace Quiet

variable {s s' s'' : Store}

theorem trans (first : Quiet s s') (second : Quiet s' s'') : Quiet s s'' where
  mls := second.mls.trans first.mls
  messages := second.messages.trans first.messages
  pruneMarks := second.pruneMarks.trans first.pruneMarks
  grows := first.grows.trans second.grows

end Quiet

namespace Harmless

variable {s s' s'' : Store}

/-- Only tables that the MLS state does not rely on were written. -/
theorem of_eq (mls : s'.mls = s.mls) (messages : s'.messages = s.messages)
    (pruneMarks : s'.pruneMarks = s.pruneMarks) (events : s'.events = s.events)
    (devices : s'.devices = s.devices) (memberships : s'.memberships = s.memberships) :
    Harmless s s' where
  mls := mls
  messages := messages
  pruneMarks := pruneMarks
  grows := events ▸ .refl _
  devices := by
    intro d mem
    rwa [devices]
  members := by
    rintro conversationID accountID ⟨m, mem, here⟩
    exact ⟨m, memberships ▸ mem, here⟩

theorem refl (s : Store) : Harmless s s := of_eq rfl rfl rfl rfl rfl rfl

theorem trans (first : Harmless s s') (second : Harmless s' s'') : Harmless s s'' where
  toQuiet := first.toQuiet.trans second.toQuiet
  devices d mem := second.devices d (first.devices d mem)
  members c a mem := second.members c a (first.members c a mem)

end Harmless

namespace Calm

variable {s s' s'' : Store}

theorem refl (s : Store) : Calm s s := ⟨.refl s, .refl⟩

theorem trans (first : Calm s s') (second : Calm s' s'') : Calm s s'' :=
  ⟨first.toHarmless.trans second.toHarmless, first.blobs.trans second.blobs⟩

/-- An ordinary event without a device. -/
theorem event (s : Store) {accountID : Option AccountID} {conversationID : Option ConversationID}
    (ordinary : SyncEvent.isOrdinary
      ⟨s.events.last + 1, eventType, accountID, none, conversationID, payload, now⟩) :
    Calm s (s.insertSyncEvent eventType accountID conversationID payload now).2 where
  mls := rfl
  messages := rfl
  pruneMarks := rfl
  grows := by
    simp only [Store.insertSyncEvent]
    refine Log.Grows.append s.events ?_
    exact ordinary
  devices _ mem := mem
  members _ _ mem := mem
  blobs := ⟨rfl, rfl, rfl⟩

/-- Memberships were only added. -/
theorem memberships (s : Store) (memberships : Table Membership Membership.key)
    (keeps : ∀ m ∈ s.memberships, ∃ m' ∈ memberships, m'.scope = m.scope ∧ m'.accountID = m.accountID) :
    Calm s { s with memberships } where
  mls := rfl
  messages := rfl
  pruneMarks := rfl
  grows := .refl _
  devices _ mem := mem
  members := by
    rintro conversationID accountID ⟨m, mem, scope, account⟩
    obtain ⟨m', member', sameScope, sameAccount⟩ := keeps m mem
    exact ⟨m', member', sameScope.trans scope, sameAccount.trans account⟩
  blobs := ⟨rfl, rfl, rfl⟩

theorem addDevices (s : Store) (devices : Table Device Device.id) (keeps : ∀ d ∈ s.devices, d ∈ devices) :
    Calm s { s with devices } where
  mls := rfl
  messages := rfl
  pruneMarks := rfl
  grows := .refl _
  devices := keeps
  members _ _ mem := mem
  blobs := ⟨rfl, rfl, rfl⟩

end Calm

theorem Quiet.of_calm {s s' : Store} (calm : Calm s s') : Quiet s s' := calm.toQuiet

namespace Store

variable {accountID actor target blocker blocked createdBy updatedBy : AccountID}
  {conversationID : ConversationID} {role : Role} {deviceID : DeviceID} {u : Unit}
  {communityID : CommunityID} {kind : ChannelKind} {eventID : EventID} {attachment : AttachmentEnvelope}
  {limits : Limits} {s s' : Store}

theorem registerAccount_calm (ok : s.registerAccount now accountID role deviceID = .ok (u, s')) :
    Calm s s' := by
  unfold registerAccount at ok
  split at ok
  · next accounts devices _ inserted =>
    cases ok
    have opened : Calm s { s with accounts } := ⟨.of_eq rfl rfl rfl rfl rfl rfl, ⟨rfl, rfl, rfl⟩⟩
    refine opened.trans (.addDevices _ devices ?_)
    intro d mem
    exact (Table.mem_of_insert? inserted d).mpr (.inl mem)
  · cases ok

theorem enrollDevice_calm (ok : s.enrollDevice now accountID deviceID = .ok (u, s')) : Calm s s' := by
  have ok := of_require ok
  split at ok
  · next devices inserted =>
    cases ok
    refine .addDevices s devices ?_
    intro d mem
    exact (Table.mem_of_insert? inserted d).mpr (.inl mem)
  · cases ok

theorem setAccountStatus_ok {status : AccountStatus}
    (ok : s.setAccountStatus actor target status = .ok (u, s')) : ∃ accounts, s' = { s with accounts } := by
  have ok := of_require ok
  have ok := of_require ok
  split at ok
  · have ok := of_require ok
    split at ok
    · have ok := of_require ok
      have ok := of_require ok
      cases ok
      exact ⟨_, rfl⟩
    · cases ok
  · cases ok

theorem blockAccount_ok (ok : s.blockAccount blocker blocked = .ok (u, s')) :
    ∃ blocks, s' = { s with blocks } := by
  have ok := of_require ok
  have ok := of_require ok
  cases ok
  exact ⟨_, rfl⟩

theorem unblockAccount_ok (ok : s.unblockAccount blocker blocked = .ok (u, s')) :
    ∃ blocks, s' = { s with blocks } := by
  have ok := of_require ok
  cases ok
  exact ⟨_, rfl⟩

theorem createAttachmentEnvelope_ok (ok : s.createAttachmentEnvelope now attachment = .ok (u, s')) :
    (∀ a ∈ s.attachments, a.storageKey ≠ attachment.storageKey) ∧ ∃ attachments,
      s.attachments.insert? { attachment with createdAt := now } = some attachments ∧
      s' = { s with attachments } := by
  have ok := of_require ok
  obtain ⟨unused, ok⟩ := require_ok.mp ok
  split at ok
  · next attachments inserted =>
    cases ok
    exact ⟨unused, attachments, inserted, rfl⟩
  · cases ok

theorem revokeDevice_ok (ok : s.revokeDevice now accountID deviceID = .ok (eventID, s')) :
    s' = s.markRevoked (fun d => d.id = deviceID ∧ d.accountID = accountID) now := by
  have ok := of_require ok
  cases ok
  rfl

end Store
end Veritra.Storage
