import Veritra.Model.Storage.Schema

/-! # MLS revocations

A revoked device has to be removed from every MLS group it is in. The server queues one revocation
per group, names one device that may commit it, and waits until every required device confirmed.
This module follows `mls_revocation_store.go`, with `queueMLSRevocations` of `identity_store.go`
and `completeMLSRevocationIfConfirmed` of `mls_message_store.go`. SQL fragments that the source
splices into several queries are predicates here, under the source's names.
-/

namespace Veritra.Storage

open Relational

namespace Store

/-- `memberships` has the account in the conversation. -/
def isConversationMember (s : Store) (conversationID : ConversationID) (accountID : AccountID) : Prop :=
  ∃ m ∈ s.memberships, m.scope = .conversation conversationID ∧ m.accountID = accountID
  deriving Decidable

/-- The device exists, belongs to the account and is not revoked. -/
def isUnrevokedDeviceOf (s : Store) (deviceID : DeviceID) (accountID : AccountID) : Prop :=
  ∃ d ∈ s.devices, d.id = deviceID ∧ d.accountID = accountID ∧ d.revokedAt = none
  deriving Decidable

def hasMLSGroup (s : Store) (conversationID : ConversationID) : Prop :=
  ∃ g ∈ s.mls.groups, g.conversationID = conversationID
  deriving Decidable

/-- The device has a roster row that no commit has ended. -/
def activeMLSDevice (s : Store) (conversationID : ConversationID) (deviceID : DeviceID) : Prop :=
  ∃ row ∈ s.mls.devices, row.conversationID = conversationID ∧ row.deviceID = deviceID ∧ row.removedAfterEventID = none
  deriving Decidable

def hasMLSMessage (s : Store) (conversationID : ConversationID) : Prop :=
  ∃ m ∈ s.mls.messages, m.conversationID = conversationID
  deriving Decidable

/-- Append a sync event and return its id. The device column is set afterwards, where it is. -/
def insertSyncEvent (s : Store) (eventType : EventType) (accountID : Option AccountID)
    (conversationID : Option ConversationID) (payload : Payload) (createdAt : Time) : EventID × Store :=
  (s.events.last + 1,
    { s with events := s.events.append fun id =>
        { id, eventType, accountID, deviceID := none, conversationID, payload, createdAt } })

/-- `SELECT MIN(created_at)` over the conversation's retained MLS messages. -/
def oldestMLSMessageAt (s : Store) (conversationID : ConversationID) : Option Time :=
  ((s.mls.messages.rows.filter (·.conversationID = conversationID)).map (·.createdAt)).min?

/-- The device shows evidence of a leaf in a group without roster: it sent an MLS message, was
welcomed by one, or is no newer than the oldest retained one. -/
def mlsLegacyLeafEvidence (s : Store) (conversationID : ConversationID) (deviceID : DeviceID)
    (createdAt : Time) : Prop :=
  (∃ m ∈ s.mls.messages, m.conversationID = conversationID ∧ m.senderDeviceID = deviceID) ∨
  (∃ m ∈ s.mls.messages, m.conversationID = conversationID ∧ m.kind = .welcome ∧ m.recipientDeviceID = some deviceID) ∨
  (∃ oldest ∈ s.oldestMLSMessageAt conversationID, createdAt ≤ oldest)
  deriving Decidable

/-- The device has a leaf: it is on the roster, or the group has none and there is evidence. -/
def mlsLeaf (s : Store) (conversationID : ConversationID) (d : Device) : Prop :=
  s.activeMLSDevice conversationID d.id ∨
    (¬ s.hasMLSGroup conversationID ∧ s.mlsLegacyLeafEvidence conversationID d.id d.createdAt)
  deriving Decidable

def mlsRevocationEligibleDevice (s : Store) (r : MLSRevocation) (deviceID : DeviceID) : Prop :=
  ∃ ed ∈ s.devices, ed.id = deviceID ∧ ed.revokedAt = none ∧ ed.id ≠ r.revokedDeviceID ∧
    s.isConversationMember r.conversationID ed.accountID ∧ s.mlsLeaf r.conversationID ed
  deriving Decidable

/-- The revocation still has a leaf to remove. -/
def mlsRevocationTargetInGroup (s : Store) (r : MLSRevocation) : Prop :=
  if s.hasMLSGroup r.conversationID then s.activeMLSDevice r.conversationID r.revokedDeviceID
  else s.hasMLSMessage r.conversationID
  deriving Decidable

/-- The device expected to commit the revocation now: the recorded coordinator while it is
eligible, and otherwise the lowest eligible device id. -/
def mlsRevocationCoordinator (s : Store) (r : MLSRevocation) : Option DeviceID :=
  if ¬ s.mlsRevocationTargetInGroup r then none
  else if s.mlsRevocationEligibleDevice r r.coordinatorDeviceID then some r.coordinatorDeviceID
  else ((s.devices.rows.filter fun cd => s.isConversationMember r.conversationID cd.accountID ∧
    s.mlsRevocationEligibleDevice r cd.id).map (·.id)).min?

/-- Only the current coordinator of a pending revocation may submit its commit. -/
def mlsRevocationCommitAllowed (s : Store) (conversationID : ConversationID)
    (revokedDeviceID deviceID : DeviceID) : Prop :=
  ∃ r ∈ s.mls.revocations, r.conversationID = conversationID ∧ r.revokedDeviceID = revokedDeviceID ∧
    r.state = .pending ∧ s.mlsRevocationCoordinator r = some deviceID
  deriving Decidable

def unconfirmed (s : Store) (conversationID : ConversationID) (revokedDeviceID : DeviceID) : Prop :=
  ∃ row ∈ s.mls.requiredDevices, row.conversationID = conversationID ∧
    row.revokedDeviceID = revokedDeviceID ∧ row.confirmedAt = none
  deriving Decidable

/-- The revocation's commit is in and it is not completed. -/
def commitSubmitted (s : Store) (conversationID : ConversationID) (revokedDeviceID : DeviceID) : Prop :=
  ∃ r ∈ s.mls.revocations, r.conversationID = conversationID ∧ r.revokedDeviceID = revokedDeviceID ∧
    r.state = .commitSubmitted
  deriving Decidable

/-- Complete a revocation whose commit was submitted once every required device confirmed it. The
answer is the id of the completed event, or zero when nothing changed. -/
def completeMLSRevocationIfConfirmed (s : Store) (conversationID : ConversationID)
    (revokedDeviceID : DeviceID) (now : Time) : EventID × Store :=
  if s.unconfirmed conversationID revokedDeviceID then (0, s)
  else if s.commitSubmitted conversationID revokedDeviceID then
    let completed : Store := { s with
      mls := { s.mls with
        revocations := s.mls.revocations.update
          (fun r => r.conversationID = conversationID ∧ r.revokedDeviceID = revokedDeviceID ∧
            r.state = .commitSubmitted)
          fun r => { r with state := .completed, completedAt := some now } } }
    completed.insertSyncEvent .mlsRevocationCompleted none (some conversationID)
      (.mlsRevocation revokedDeviceID none) now
  else (0, s)

/-- `confirmed_at = now` on the required rows that `p` selects. -/
def confirmRequired (s : Store) (p : RequiredDevice → Prop) [DecidablePred p] (now : Time) : Store :=
  { s with
    mls := { s.mls with
      requiredDevices := s.mls.requiredDevices.update p
        fun row => { row with confirmedAt := some now } } }

/-- Complete each of the listed revocations that has nothing left to wait for. -/
def completeEach (s : Store) (now : Time) : List (ConversationID × DeviceID) → Store
  | [] => s
  | (conversationID, revokedDeviceID) :: rest =>
    (s.completeMLSRevocationIfConfirmed conversationID revokedDeviceID now).2.completeEach now rest

/-- `ORDER BY conversation_id, revoked_device_id`. -/
def revocationOrder (left right : ConversationID × DeviceID) : Prop :=
  left.1 < right.1 ∨ (left.1 = right.1 ∧ left.2 ≤ right.2)
  deriving Decidable

/-- Stop every revocation waiting on a device that will never confirm it. -/
def releaseMLSRevocationConfirmations (s : Store) (deviceID : DeviceID) (now : Time) : Store :=
  let released := ((s.mls.requiredDevices.rows.filter fun row =>
    row.deviceID = deviceID ∧ row.confirmedAt = none).map (·.revocation)).insertionSort revocationOrder
  (s.confirmRequired (fun row => row.deviceID = deviceID ∧ row.confirmedAt = none) now).completeEach now
    released

/-- A required device confirms that it applied the revocation commit. A repeated confirmation
changes nothing; any other one that no row answers is refused. -/
def confirmMLSRevocation (s : Store) (now : Time) (conversationID : ConversationID)
    (revokedDeviceID : DeviceID) (accountID : AccountID) (deviceID : DeviceID) :
    Except StoreError (EventID × Store) :=
  if (∃ row ∈ s.mls.requiredDevices, row.conversationID = conversationID ∧
        row.revokedDeviceID = revokedDeviceID ∧ row.deviceID = deviceID ∧ row.confirmedAt = none) ∧
      s.isConversationMember conversationID accountID ∧
      s.commitSubmitted conversationID revokedDeviceID then
    let confirmed := s.confirmRequired (fun row => row.conversationID = conversationID ∧
      row.revokedDeviceID = revokedDeviceID ∧ row.deviceID = deviceID ∧ row.confirmedAt = none) now
    .ok (confirmed.completeMLSRevocationIfConfirmed conversationID revokedDeviceID now)
  else if ∃ row ∈ s.mls.requiredDevices, row.conversationID = conversationID ∧
      row.revokedDeviceID = revokedDeviceID ∧ row.deviceID = deviceID ∧ row.confirmedAt ≠ none then
    .ok (0, s)
  else .error .forbidden

/-- Delete the conversation's pending revocations whose device has no leaf in its recorded group;
the required devices go with them. -/
def dropStaleMLSRevocations (s : Store) (conversationID : ConversationID) : Store :=
  let stale (r : MLSRevocation) : Prop := r.conversationID = conversationID ∧ r.state = .pending ∧
    s.hasMLSGroup r.conversationID ∧ ¬ s.activeMLSDevice r.conversationID r.revokedDeviceID
  { s with mls := { s.mls with
      revocations := s.mls.revocations.delete stale
      requiredDevices := s.mls.requiredDevices.delete fun row =>
        ∃ r ∈ s.mls.revocations, stale r ∧ r.key = row.revocation } }

/-- The groups without roster that the account's membership finds, each with its coordinator: the
lowest participating device with evidence of a leaf, or else the lowest one. -/
def legacyRevocations (s : Store) (accountID : AccountID) (deviceID : DeviceID) :
    List (ConversationID × DeviceID) :=
  (s.memberships.rows.filter (·.accountID = accountID)).filterMap fun m =>
    match m.scope with
    | .community _ => none
    | .conversation conversationID =>
      if ¬ s.hasMLSGroup conversationID ∧ s.hasMLSMessage conversationID then
        let participants := s.devices.rows.filter fun d =>
          s.isConversationMember conversationID d.accountID ∧ d.revokedAt = none ∧ d.id ≠ deviceID
        let leaves := participants.filter fun d =>
          s.mlsLegacyLeafEvidence conversationID d.id d.createdAt
        (((leaves.map (·.id)).min?).or (participants.map (·.id)).min?).map (conversationID, ·)
      else none

/-- The recorded groups with the device on their roster, each with the lowest other roster device
that is not revoked. -/
def rosterRevocations (s : Store) (deviceID : DeviceID) : List (ConversationID × DeviceID) :=
  (s.mls.devices.rows.filter fun target =>
    target.deviceID = deviceID ∧ target.removedAfterEventID = none).filterMap fun target =>
      (((s.mls.devices.rows.filter fun r => r.conversationID = target.conversationID ∧
        r.removedAfterEventID = none ∧ r.deviceID ≠ target.deviceID ∧
        ∃ d ∈ s.devices, d.id = r.deviceID ∧ d.revokedAt = none).map (·.deviceID)).min?).map
          (target.conversationID, ·)

/-- The devices that have to confirm the removal of `deviceID` from the conversation's group. -/
def requiredConfirmers (s : Store) (conversationID : ConversationID) (deviceID : DeviceID) :
    List Device :=
  s.devices.rows.filter fun d => s.isConversationMember conversationID d.accountID ∧
    d.revokedAt = none ∧ d.id ≠ deviceID ∧ s.mlsLeaf conversationID d

/-- Queue one revocation, unless the group already has one for the device. -/
def queueMLSRevocation (s : Store) (accountID : AccountID) (deviceID : DeviceID) (now : Time)
    (conversationID : ConversationID) (coordinatorDeviceID : DeviceID) : Store :=
  match s.mls.revocations.insert? {
      conversationID, revokedDeviceID := deviceID, revokedAccountID := accountID,
      coordinatorDeviceID, state := .pending, commitMessageID := none, requestedAt := now,
      completedAt := none } with
  | none => s
  | some revocations =>
    let required := (s.requiredConfirmers conversationID deviceID).foldl
      (fun table d => table.insertOrIgnore
        { conversationID, revokedDeviceID := deviceID, deviceID := d.id, confirmedAt := none })
      s.mls.requiredDevices
    let queued : Store := { s with mls := { s.mls with revocations, requiredDevices := required } }
    (queued.insertSyncEvent .mlsRevocationPending none (some conversationID)
      (.mlsRevocation deviceID (some accountID)) now).2

def queueEach (s : Store) (accountID : AccountID) (deviceID : DeviceID) (now : Time) :
    List (ConversationID × DeviceID) → Store
  | [] => s
  | (conversationID, coordinatorDeviceID) :: rest =>
    (s.queueMLSRevocation accountID deviceID now conversationID coordinatorDeviceID).queueEach
      accountID deviceID now rest

/-- Queue the removal of a revoked device from every MLS group it is in. -/
def queueMLSRevocations (s : Store) (accountID : AccountID) (deviceID : DeviceID) (now : Time) : Store :=
  s.queueEach accountID deviceID now
    (s.legacyRevocations accountID deviceID ++ s.rosterRevocations deviceID)

end Store
end Veritra.Storage
