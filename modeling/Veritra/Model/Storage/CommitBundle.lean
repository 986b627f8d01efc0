import Veritra.Machine.Guard
import Veritra.Model.Storage.Revocations
import Veritra.Model.Storage.Text

/-! # Commit bundles

A commit bundle is one MLS commit with its Welcomes and roster change, stored in one transaction.
This module follows `CreateMLSCommitBundle` of `mls_group_store.go` and the helpers it calls, in
their order of checks and writes. Generated message ids and the clock are arguments: `newID n` is
the id of the n-th message the call stores.
-/

namespace Veritra.Storage

open Relational Machine

/-- The configured admission limits the modelled operations read. -/
structure Limits where
  mlsSelfUpdateMinutes : ℕ
  conversationsPerAccount : ℕ
  conversationMembers : ℕ
  deriving DecidableEq, Repr

def maxMLSBundleChanges : ℕ := 256
def maxMLSHandshake : ℕ := 4 * 1024 * 1024

/-- One device in a membership change. -/
structure MLSDeviceRef where
  accountID : AccountID
  deviceID : DeviceID
  deriving DecidableEq, Repr

structure MLSCommitBundleInput where
  conversationID : ConversationID
  senderAccountID : AccountID
  senderDeviceID : DeviceID
  epoch : ℤ
  idempotencyKey : String
  commit : Bytes
  welcome : Bytes
  added : List MLSDeviceRef
  removed : List MLSDeviceRef
  revocationDeviceID : DeviceID
  deriving DecidableEq, Repr

structure MLSCommitBundleResult where
  commit : Option MLSMessage
  welcomes : List MLSMessage
  epoch : ℕ
  duplicate : Bool
  revocationCompletedEventID : EventID
  deriving DecidableEq, Repr

/-- A list of devices that names each one at most once, with plausible ids. -/
def validMLSDeviceRefs (refs : List MLSDeviceRef) : Prop :=
  refs.length ≤ maxMLSBundleChanges ∧
    (∀ ref ∈ refs, ¬ isBlank ref.accountID ∧ ¬ isBlank ref.deviceID ∧
      byteLength ref.accountID ≤ 128 ∧ byteLength ref.deviceID ≤ 128) ∧
    (refs.map (·.deviceID)).Nodup
  deriving Decidable

namespace MLSCommitBundleInput

/-- The trimmed form that every check and write uses. -/
def trim (input : MLSCommitBundleInput) : MLSCommitBundleInput :=
  { input with
    conversationID := trimSpace input.conversationID
    idempotencyKey := trimSpace input.idempotencyKey
    revocationDeviceID := trimSpace input.revocationDeviceID }

def hasCommit (input : MLSCommitBundleInput) : Prop := input.commit ≠ []
  deriving Decidable

/-- A commit that adds and removes no one: the sender's periodic self-update. -/
def updateOnly (input : MLSCommitBundleInput) : Prop :=
  input.hasCommit ∧ input.added = [] ∧ input.removed = []
  deriving Decidable

/-- The checks made before the transaction begins. -/
def valid (input : MLSCommitBundleInput) : Prop :=
  (input.conversationID ≠ "" ∧ input.senderAccountID ≠ "" ∧ input.senderDeviceID ≠ "" ∧
    0 ≤ input.epoch ∧ input.idempotencyKey ≠ "" ∧ byteLength input.idempotencyKey ≤ 96 ∧
    input.commit.length ≤ maxMLSHandshake ∧ input.welcome.length ≤ maxMLSHandshake ∧
    validMLSDeviceRefs input.added ∧ validMLSDeviceRefs input.removed ∧
    (input.added ≠ [] ↔ input.welcome ≠ []) ∧
    (input.hasCommit ∨ (input.added = [] ∧ input.removed = [] ∧ input.epoch = 0))) ∧
  (∀ removed ∈ input.removed, removed.deviceID ≠ input.senderDeviceID) ∧
  (input.revocationDeviceID ≠ "" → ∃ removed ∈ input.removed, removed.deviceID = input.revocationDeviceID)
  deriving Decidable

end MLSCommitBundleInput

namespace Roster

def markSelfUpdate (conversationID : ConversationID) (deviceID : DeviceID) (now : Time)
    (roster : Table MLSDevice MLSDevice.key) : Table MLSDevice MLSDevice.key :=
  roster.update (fun row => row.conversationID = conversationID ∧ row.deviceID = deviceID)
    fun row => { row with lastSelfUpdateAt := some now }

/-- End the roster row of a removed device at the commit. -/
def leave (conversationID : ConversationID) (commitEventID : EventID)
    (roster : Table MLSDevice MLSDevice.key) (removed : MLSDeviceRef) : Table MLSDevice MLSDevice.key :=
  roster.update (fun row => row.conversationID = conversationID ∧ row.deviceID = removed.deviceID ∧
      row.removedAfterEventID = none)
    fun row => { row with removedAfterEventID := some commitEventID }

/-- Put a device on the roster, over its old row if it has one. The join cursor is the commit. -/
def join (conversationID : ConversationID) (commitEventID : EventID) (epoch : ℕ)
    (roster : Table MLSDevice MLSDevice.key) (added : MLSDeviceRef) : Table MLSDevice MLSDevice.key :=
  roster.upsert ⟨conversationID, added.deviceID, added.accountID, commitEventID, epoch, none, none⟩
    fun row => { row with
      accountID := added.accountID
      joinedAfterEventID := commitEventID
      joinedEpoch := epoch
      removedAfterEventID := none }

end Roster

/-- What `insertMLSMessage` stores, before the row has an id and a sync event. -/
structure MLSMessageRow where
  conversationID : ConversationID
  senderAccountID : AccountID
  senderDeviceID : DeviceID
  recipient : Option MLSDeviceRef
  revocationDeviceID : Option DeviceID
  kind : MLSKind
  payload : Bytes
  idempotencyKey : String
  createdAt : Time
  deriving DecidableEq, Repr

namespace Store

def mlsGroupEpoch (s : Store) (conversationID : ConversationID) : Option ℕ :=
  (s.mls.groups.find? conversationID).map (·.epoch)

def mlsMessageByKey (s : Store) (deviceID : DeviceID) (idempotencyKey : String) : Option MLSMessage :=
  s.mls.messages.findIndex? (deviceID, idempotencyKey)

/-- The sender check: an unrevoked device of an account that is a member. -/
def isMemberDevice (s : Store) (conversationID : ConversationID) (accountID : AccountID)
    (deviceID : DeviceID) : Prop :=
  s.isConversationMember conversationID accountID ∧ s.isUnrevokedDeviceOf deviceID accountID
  deriving Decidable

/-- Store one MLS message and its sync event, which goes to `eventDeviceID` only when it is set. -/
def storeMLSMessage (s : Store) (id : MLSMessageID) (row : MLSMessageRow)
    (eventDeviceID : Option DeviceID) : Except StoreError (MLSMessage × Store) :=
  let message : MLSMessage :=
    { id, conversationID := row.conversationID, senderAccountID := row.senderAccountID,
      senderDeviceID := row.senderDeviceID, recipientDeviceID := row.recipient.map (·.deviceID),
      revocationDeviceID := row.revocationDeviceID, kind := row.kind, payload := row.payload,
      idempotencyKey := row.idempotencyKey, syncEventID := s.events.last + 1,
      createdAt := row.createdAt }
  match s.mls.messages.insert? message with
  | none => .error .uniqueConstraint
  | some messages =>
    .ok (message,
      { s with
        mls := { s.mls with messages }
        events := s.events.append fun eventID =>
          { id := eventID, eventType := .mlsMessageCreated,
            accountID := row.recipient.map (·.accountID), deviceID := eventDeviceID,
            conversationID := some row.conversationID,
            payload := .mlsMessage id (row.kind = .welcome), createdAt := row.createdAt } })

/-- Store one message of a bundle. A Welcome's event is visible only to its recipient device. -/
def insertMLSMessage (s : Store) (id : MLSMessageID) (row : MLSMessageRow) :
    Except StoreError (MLSMessage × Store) :=
  s.storeMLSMessage id row (row.recipient.map (·.deviceID))

/-- Record a new group with its creator as the only roster device. -/
def createMLSGroup (s : Store) (now : Time) (input : MLSCommitBundleInput) : Except StoreError Store := do
  require (¬ s.hasMLSMessage input.conversationID) StoreError.mlsGroupLegacy
  require (input.epoch = 0 ∧ input.removed = [] ∧ input.revocationDeviceID = "")
    StoreError.mlsEpochConflict
  match s.mls.groups.insert? ⟨input.conversationID, 0, now⟩,
      s.mls.devices.insert? ⟨input.conversationID, input.senderDeviceID, input.senderAccountID, 0, 0,
        none, none⟩ with
  | some groups, some devices =>
    pure ({ s with mls := { s.mls with groups, devices } }.dropStaleMLSRevocations input.conversationID)
  | _, _ => .error .uniqueConstraint

/-- A removal is waiting: a pending revocation, or a roster device whose account left. -/
def mlsChangePending (s : Store) (conversationID : ConversationID) : Prop :=
  (∃ r ∈ s.mls.revocations, r.conversationID = conversationID ∧ r.state = .pending) ∨
  (∃ row ∈ s.mls.devices, row.conversationID = conversationID ∧ row.removedAfterEventID = none ∧
    (∃ d ∈ s.devices, d.id = row.deviceID ∧ d.revokedAt = none) ∧
    ¬ s.isConversationMember row.conversationID row.accountID)
  deriving Decidable

/-- Admit one update-only commit: removals come first, then the per-device interval. -/
def checkMLSSelfUpdate (limits : Limits) (s : Store) (conversationID : ConversationID)
    (deviceID : DeviceID) (now : Time) : Except StoreError Unit := do
  require (¬ s.mlsChangePending conversationID) StoreError.mlsChangePending
  match s.mls.devices.find? (conversationID, deviceID) with
  | none => .error .noRows
  | some row =>
    match row.lastSelfUpdateAt with
    | none => pure ()
    | some last =>
      let next := last + limits.mlsSelfUpdateMinutes * 60 * second
      require (next ≤ now) (StoreError.mlsSelfUpdateLimit (next - now))

/-- The device may be added: an unrevoked device of a member that is not on the roster. -/
def mlsAddable (s : Store) (conversationID : ConversationID) (added : MLSDeviceRef) : Prop :=
  s.isMemberDevice conversationID added.accountID added.deviceID ∧ ¬ s.activeMLSDevice conversationID added.deviceID
  deriving Decidable

/-- The device may be removed by this bundle: it is on the roster under the named account, the
server itself wants it gone, and no other commit has to remove it. -/
def mlsRemovable (s : Store) (conversationID : ConversationID) (revocationDeviceID : DeviceID)
    (removed : MLSDeviceRef) : Prop :=
  (∃ row ∈ s.mls.devices, row.conversationID = conversationID ∧ row.deviceID = removed.deviceID ∧
    row.removedAfterEventID = none ∧ row.accountID = removed.accountID) ∧
  (¬ s.isConversationMember conversationID removed.accountID ∨
    ¬ ∃ d ∈ s.devices, d.id = removed.deviceID ∧ d.revokedAt = none) ∧
  ((∃ r ∈ s.mls.revocations, r.conversationID = conversationID ∧
    r.revokedDeviceID = removed.deviceID ∧ r.state = .pending) → removed.deviceID = revocationDeviceID)
  deriving Decidable

def advanceEpoch (s : Store) (conversationID : ConversationID) (now : Time) : Store :=
  { s with
    mls := { s.mls with
      groups := s.mls.groups.update (·.conversationID = conversationID)
        fun g => { g with epoch := g.epoch + 1, updatedAt := now } } }

def withRoster (s : Store) (devices : Table MLSDevice MLSDevice.key) : Store :=
  { s with mls := { s.mls with devices } }

/-- Put the added devices on the roster, each with its Welcome. -/
def welcomeAdded (now : Time) (newID : ℕ → MLSMessageID) (input : MLSCommitBundleInput)
    (commitEventID : EventID) (epoch : ℕ) : Store → ℕ → List MLSDeviceRef →
    Except StoreError (List MLSMessage × Store)
  | s, _, [] => .ok ([], s)
  | s, n, added :: rest => do
    let joined := s.withRoster (Roster.join input.conversationID commitEventID epoch s.mls.devices added)
    let (welcome, s) ← joined.insertMLSMessage (newID n)
      { conversationID := input.conversationID, senderAccountID := input.senderAccountID,
        senderDeviceID := input.senderDeviceID, recipient := some added, revocationDeviceID := none,
        kind := .welcome, payload := input.welcome,
        idempotencyKey := input.idempotencyKey ++ ":welcome:" ++ added.deviceID, createdAt := now }
    let (welcomes, s) ← welcomeAdded now newID input commitEventID epoch s (n + 1) rest
    pure (welcome :: welcomes, s)

/-- Move the pending revocation to its commit, count the sender as confirmed, and complete the
revocation if nothing else is left to wait for. -/
def submitRevocation (s : Store) (conversationID : ConversationID) (revokedDeviceID : DeviceID)
    (commitMessageID : MLSMessageID) (senderDeviceID : DeviceID) (now : Time) : EventID × Store :=
  let submitted : Store := { s with
    mls := { s.mls with
      revocations := s.mls.revocations.update
        (fun r => r.conversationID = conversationID ∧ r.revokedDeviceID = revokedDeviceID ∧ r.state = .pending)
        fun r => { r with state := .commitSubmitted, commitMessageID := some commitMessageID } } }
  (submitted.confirmRequired (fun row => row.conversationID = conversationID ∧
      row.revokedDeviceID = revokedDeviceID ∧ row.deviceID = senderDeviceID) now).completeMLSRevocationIfConfirmed
    conversationID revokedDeviceID now

/-- The writes of an accepted commit, on the group at `epoch`. -/
def writeCommit (s : Store) (now : Time) (newID : ℕ → MLSMessageID) (input : MLSCommitBundleInput)
    (epoch : ℕ) : Except StoreError (MLSCommitBundleResult × Store) := do
  let (commit, s) ← s.insertMLSMessage (newID 0)
    { conversationID := input.conversationID, senderAccountID := input.senderAccountID,
      senderDeviceID := input.senderDeviceID, recipient := none,
      revocationDeviceID := nullableEmptyString input.revocationDeviceID, kind := .commit,
      payload := input.commit, idempotencyKey := input.idempotencyKey, createdAt := now }
  let s := s.advanceEpoch input.conversationID now
  let s := if input.updateOnly then
      s.withRoster (Roster.markSelfUpdate input.conversationID input.senderDeviceID now s.mls.devices)
    else s
  let s := s.withRoster (input.removed.foldl (Roster.leave input.conversationID commit.syncEventID)
    s.mls.devices)
  let (welcomes, s) ← welcomeAdded now newID input commit.syncEventID (epoch + 1) s 1 input.added
  let (completedEventID, s) :=
    if input.revocationDeviceID ≠ "" then
      s.submitRevocation input.conversationID input.revocationDeviceID commit.id input.senderDeviceID now
    else (0, s)
  pure (⟨some commit, welcomes, epoch + 1, false, completedEventID⟩, s.dropStaleMLSRevocations input.conversationID)

/-- Check and write a commit on the group at `epoch`. -/
def acceptCommit (limits : Limits) (s : Store) (now : Time) (newID : ℕ → MLSMessageID)
    (input : MLSCommitBundleInput) (epoch : ℕ) : Except StoreError (MLSCommitBundleResult × Store) := do
  if input.updateOnly then
    checkMLSSelfUpdate limits s input.conversationID input.senderDeviceID now
  require (∀ added ∈ input.added, s.mlsAddable input.conversationID added) StoreError.forbidden
  require (∀ removed ∈ input.removed,
    s.mlsRemovable input.conversationID input.revocationDeviceID removed) StoreError.forbidden
  require (input.revocationDeviceID ≠ "" → s.mlsRevocationCommitAllowed input.conversationID
    input.revocationDeviceID input.senderDeviceID) StoreError.forbidden
  s.writeCommit now newID input epoch

/-- The answer to a bundle whose commit is already stored. -/
def replayCommit (s : Store) (input : MLSCommitBundleInput) (existing : MLSMessage) :
    Except StoreError (MLSCommitBundleResult × Store) := do
  require (existing.conversationID = input.conversationID ∧ existing.kind = .commit ∧
    existing.payload = input.commit) StoreError.idempotencyConflict
  pure (⟨some existing, [], (s.mlsGroupEpoch input.conversationID).getD 0, true, 0⟩, s)

/-- A bundle that is not a retry: on a new group, or on the recorded one at its epoch. -/
def placeCommit (limits : Limits) (s : Store) (now : Time) (newID : ℕ → MLSMessageID)
    (input : MLSCommitBundleInput) : Except StoreError (MLSCommitBundleResult × Store) :=
  match s.mlsGroupEpoch input.conversationID with
  | none => do
    require (¬ input.updateOnly) StoreError.mlsNotInGroup
    let s ← s.createMLSGroup now input
    if input.hasCommit then acceptCommit limits s now newID input 0
    else pure (⟨none, [], 0, false, 0⟩, s)
  | some epoch => do
    require (s.activeMLSDevice input.conversationID input.senderDeviceID) StoreError.mlsNotInGroup
    if input.hasCommit then do
      require (input.epoch = epoch) StoreError.mlsEpochConflict
      acceptCommit limits s now newID input epoch
    else pure (⟨none, [], epoch, true, 0⟩, s)

/-- Store one commit with its Welcomes and roster change, or record the creator of a new group when
there is nothing to commit yet. -/
def createMLSCommitBundle (limits : Limits) (s : Store) (now : Time) (newID : ℕ → MLSMessageID)
    (request : MLSCommitBundleInput) : Except StoreError (MLSCommitBundleResult × Store) := do
  let input := request.trim
  require input.valid StoreError.invalidInput
  require (s.isMemberDevice input.conversationID input.senderAccountID input.senderDeviceID)
    StoreError.notMember
  match (if input.hasCommit then s.mlsMessageByKey input.senderDeviceID input.idempotencyKey
    else none) with
  | some existing => s.replayCommit input existing
  | none => placeCommit limits s now newID input

end Store
end Veritra.Storage
