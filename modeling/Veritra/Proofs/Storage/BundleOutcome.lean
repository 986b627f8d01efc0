import Veritra.Proofs.Storage.RevocationWrites
import Veritra.Proofs.Storage.Roster

/-! # What a commit bundle can do

One inversion for `createMLSCommitBundle`: a committed bundle is a retry, a repeated or first record
of the group's creator, or an accepted commit. The writes of an accepted commit are described by
the tables they leave, so that every invariant of the groups, the rosters and the revocations is
a short case analysis over this outcome.
-/

namespace Veritra.Storage

open Relational Machine

variable {s s' base : Store} {now : Time} {newID : ℕ → MLSMessageID} {input : MLSCommitBundleInput}
  {epoch : ℕ} {result : MLSCommitBundleResult}

/-- The event announces an MLS message of a conversation. -/
def SyncEvent.isMLSMessageNotice (e : SyncEvent) : Prop :=
  e.eventType = .mlsMessageCreated ∧ e.conversationID ≠ none ∧ ∃ id welcome, e.payload = .mlsMessage id welcome

/-- One stored MLS message, with its event. -/
structure StoredMessage (s : Store) (id : MLSMessageID) (row : MLSMessageRow) (message : MLSMessage)
    (s' : Store) : Prop where
  message_eq : message =
    { id, conversationID := row.conversationID, senderAccountID := row.senderAccountID,
      senderDeviceID := row.senderDeviceID, recipientDeviceID := row.recipient.map (·.deviceID),
      revocationDeviceID := row.revocationDeviceID, kind := row.kind, payload := row.payload,
      idempotencyKey := row.idempotencyKey, syncEventID := s.events.last + 1,
      createdAt := row.createdAt }
  frame : ∃ messages events, s' = { s with mls := { s.mls with messages }, events }
  messages : ∀ m, m ∈ s'.mls.messages ↔ m ∈ s.mls.messages ∨ m = message
  last : s'.events.last = message.syncEventID
  grows : s.events.Grows SyncEvent.isMLSMessageNotice s'.events

theorem Store.storeMLSMessage_ok {id : MLSMessageID} {row : MLSMessageRow}
    {eventDeviceID : Option DeviceID} {message : MLSMessage}
    (stored : s.storeMLSMessage id row eventDeviceID = .ok (message, s')) :
    StoredMessage s id row message s' := by
  simp only [storeMLSMessage] at stored
  split at stored
  · cases stored
  · next messages inserted =>
    cases stored
    refine ⟨rfl, ⟨_, _, rfl⟩, IndexedTable.mem_of_insert? inserted, rfl, ?_⟩
    dsimp only
    refine Log.Grows.append s.events ?_
    exact ⟨rfl, Option.some_ne_none _, id, _, rfl⟩

/-- The Welcomes of a commit: their rosters rows and messages, and nothing else. -/
structure Welcomed (c : ConversationID) (commitEventID : EventID) (epoch : ℕ)
    (added : List MLSDeviceRef) (s : Store) (welcomes : List MLSMessage) (s' : Store) : Prop where
  frame : ∃ devices messages events, s' = { s with mls := { s.mls with devices, messages }, events }
  roster : s'.mls.devices = added.foldl (Roster.join c commitEventID epoch) s.mls.devices
  messages : ∀ m, m ∈ s'.mls.messages ↔ m ∈ s.mls.messages ∨ m ∈ welcomes
  conversation : ∀ m ∈ welcomes, m.conversationID = c
  grows : s.events.Grows SyncEvent.isMLSMessageNotice s'.events

theorem Store.welcomeAdded_ok {commitEventID : EventID} {n : ℕ} {added : List MLSDeviceRef}
    {welcomes : List MLSMessage}
    (welcomed : welcomeAdded now newID input commitEventID epoch s n added = .ok (welcomes, s')) :
    Welcomed input.conversationID commitEventID epoch added s welcomes s' := by
  induction added generalizing s n welcomes with
  | nil =>
    cases welcomed
    exact ⟨⟨_, _, _, rfl⟩, rfl, by simp, by simp, .refl _⟩
  | cons ref rest ih =>
    simp only [welcomeAdded, bind_eq_ok] at welcomed
    obtain ⟨⟨welcome, middle⟩, stored, ⟨later, last⟩, others, done⟩ := welcomed
    cases done
    have first := storeMLSMessage_ok stored
    have tail := ih others
    obtain ⟨_, _, rfl⟩ := first.frame
    refine ⟨?_, tail.roster, ?_, ?_, first.grows.trans tail.grows⟩
    · obtain ⟨_, _, _, rfl⟩ := tail.frame
      exact ⟨_, _, _, rfl⟩
    · intro m
      rw [tail.messages, first.messages, List.mem_cons]
      tauto
    · intro m mem
      rcases List.mem_cons.mp mem with rfl | old
      · rw [first.message_eq]
      · exact tail.conversation m old

/-- The store between the roster change and the revocation writes of an accepted commit. -/
structure CommitWrites (base middle : Store) (now : Time) (input : MLSCommitBundleInput) (epoch : ℕ)
    (commit : MLSMessage) (welcomes : List MLSMessage) : Prop where
  conversation : commit.conversationID = input.conversationID
  sender : commit.senderDeviceID = input.senderDeviceID
  kind : commit.kind = .commit
  payload : commit.payload = input.commit
  idempotencyKey : commit.idempotencyKey = input.idempotencyKey
  syncEventID : commit.syncEventID = base.events.last + 1
  last : commit.syncEventID ≤ middle.events.last
  frame : ∃ groups devices messages events,
    middle = { base with mls := { base.mls with groups, devices, messages }, events }
  groups : middle.mls.groups = (base.advanceEpoch input.conversationID now).mls.groups
  roster : RosterChange input.conversationID commit.syncEventID (epoch + 1) input.added input.removed
    base.mls.devices middle.mls.devices
  messages : ∀ m, m ∈ middle.mls.messages ↔ m ∈ base.mls.messages ∨ m = commit ∨ m ∈ welcomes
  grows : base.events.Grows SyncEvent.isMLSMessageNotice middle.events

namespace Store

/-- The revocation writes that follow: submit the commit's own revocation, drop stale ones. -/
def finishCommit (middle : Store) (now : Time) (input : MLSCommitBundleInput) (commit : MLSMessage) :
    Store :=
  (if input.revocationDeviceID ≠ "" then
    (middle.submitRevocation input.conversationID input.revocationDeviceID commit.id
      input.senderDeviceID now).2
  else middle).dropStaleMLSRevocations input.conversationID

theorem submitRevocation_writes (s : Store) (conversationID : ConversationID)
    (revokedDeviceID : DeviceID) (commitMessageID : MLSMessageID) (senderDeviceID : DeviceID)
    (now : Time) : RevocationWrites s
      (s.submitRevocation conversationID revokedDeviceID commitMessageID senderDeviceID now).2 :=
  (RevocationWrites.tables s _ s.mls.requiredDevices).trans
    ((confirmRequired_writes _ _ now).trans (completeMLSRevocationIfConfirmed_writes _ _ _ now))

theorem finishCommit_writes (middle : Store) (now : Time) (input : MLSCommitBundleInput)
    (commit : MLSMessage) : RevocationWrites middle (middle.finishCommit now input commit) := by
  unfold finishCommit
  split
  · exact (submitRevocation_writes _ _ _ _ _ now).trans (dropStaleMLSRevocations_writes _ _)
  · exact dropStaleMLSRevocations_writes _ _

theorem writeCommit_ok (written : base.writeCommit now newID input epoch = .ok (result, s')) :
    ∃ commit welcomes middle, CommitWrites base middle now input epoch commit welcomes ∧
      result.commit = some commit ∧ result.epoch = epoch + 1 ∧ result.duplicate = false ∧
      s' = middle.finishCommit now input commit := by
  unfold writeCommit at written
  simp only [bind_eq_ok] at written
  obtain ⟨⟨commit, stored⟩, storing, ⟨welcomes, middle⟩, welcoming, done⟩ := written
  have first := storeMLSMessage_ok storing
  have second := welcomeAdded_ok welcoming
  have change : RosterChange input.conversationID commit.syncEventID (epoch + 1) input.added
      input.removed stored.mls.devices middle.mls.devices := by
    rw [second.roster]
    refine Roster.change ?_ ?_
    · intro row mem
      split at mem
      · exact Roster.markSelfUpdate_rows mem
      · exact ⟨row, mem, ⟨rfl, rfl, rfl, rfl⟩, rfl⟩
    · intro conversation device
      split
      · exact Roster.markSelfUpdate_active
      · exact Iff.rfl
  have frame := second.frame
  have messages := second.messages
  have grows := second.grows
  have message := first.message_eq
  have last : commit.syncEventID ≤ middle.events.last := by
    rw [← first.last]
    refine Nat.le_trans ?_ grows.last_le
    split <;> exact Nat.le_refl _
  obtain ⟨_, _, rfl⟩ := first.frame
  refine ⟨commit, welcomes, middle, ⟨?_, ?_, ?_, ?_, ?_, ?_, last, ?_, ?_, change, ?_, ?_⟩, ?_⟩
  · rw [message]
  · rw [message]
  · rw [message]
  · rw [message]
  · rw [message]
  · rw [message]
  · obtain ⟨_, _, _, rfl⟩ := frame
    split <;> exact ⟨_, _, _, _, rfl⟩
  · obtain ⟨_, _, _, rfl⟩ := frame
    split <;> rfl
  · intro m
    have old := first.messages m
    rw [messages]
    split <;> exact (or_congr_left old).trans or_assoc
  · refine first.grows.trans ?_
    split at grows <;> exact grows
  · cases done
    refine ⟨rfl, rfl, rfl, ?_⟩
    unfold finishCommit
    split <;> rfl

end Store

/-- A group recorded with its creator, before the stale revocations go. -/
structure GroupCreated (s middle : Store) (now : Time) (input : MLSCommitBundleInput) : Prop where
  noMessages : ¬ s.hasMLSMessage input.conversationID
  epoch : input.epoch = 0
  removed : input.removed = []
  frame : ∃ groups devices, middle = { s with mls := { s.mls with groups, devices } }
  groups : ∀ g, g ∈ middle.mls.groups ↔ g ∈ s.mls.groups ∨ g = ⟨input.conversationID, 0, now⟩
  roster : ∀ row, row ∈ middle.mls.devices ↔ row ∈ s.mls.devices ∨
    row = ⟨input.conversationID, input.senderDeviceID, input.senderAccountID, 0, 0, none, none⟩

namespace Store

variable {limits : Limits}

theorem createMLSGroup_ok (created : s.createMLSGroup now input = .ok base) :
    ∃ middle, GroupCreated s middle now input ∧ base = middle.dropStaleMLSRevocations input.conversationID := by
  simp only [createMLSGroup, require_ok] at created
  obtain ⟨noMessages, ⟨epoch, removed, -⟩, written⟩ := created
  split at written
  · next groups devices insertedGroup insertedDevice =>
    cases written
    exact ⟨{ s with mls := { s.mls with groups, devices } },
      ⟨noMessages, epoch, removed, ⟨_, _, rfl⟩, Table.mem_of_insert? insertedGroup,
        Table.mem_of_insert? insertedDevice⟩, rfl⟩
  · cases written

/-- Where a commit is placed: on the recorded group at its epoch, or on a group it creates. -/
inductive Placed (s : Store) (now : Time) (input : MLSCommitBundleInput) : Store → ℕ → Prop
  | recorded {epoch : ℕ} (group : s.mlsGroupEpoch input.conversationID = some epoch)
      (active : s.activeMLSDevice input.conversationID input.senderDeviceID)
      (current : input.epoch = epoch) : Placed s now input s epoch
  | created {base : Store} (noGroup : s.mlsGroupEpoch input.conversationID = none)
      (changes : ¬ input.updateOnly) (recorded : s.createMLSGroup now input = .ok base) :
      Placed s now input base 0

/-- What a committed bundle did. -/
inductive BundleOutcome (limits : Limits) (s : Store) (now : Time) (newID : ℕ → MLSMessageID)
    (input : MLSCommitBundleInput) : MLSCommitBundleResult → Store → Prop
  | replayed {existing : MLSMessage}
      (found : s.mlsMessageByKey input.senderDeviceID input.idempotencyKey = some existing)
      (same : existing.conversationID = input.conversationID ∧ existing.kind = .commit ∧
        existing.payload = input.commit) :
      BundleOutcome limits s now newID input
        ⟨some existing, [], (s.mlsGroupEpoch input.conversationID).getD 0, true, 0⟩ s
  | known {epoch : ℕ} (noCommit : ¬ input.hasCommit)
      (group : s.mlsGroupEpoch input.conversationID = some epoch)
      (active : s.activeMLSDevice input.conversationID input.senderDeviceID) :
      BundleOutcome limits s now newID input ⟨none, [], epoch, true, 0⟩ s
  | recorded {s' : Store} (noCommit : ¬ input.hasCommit)
      (noGroup : s.mlsGroupEpoch input.conversationID = none)
      (created : s.createMLSGroup now input = .ok s') :
      BundleOutcome limits s now newID input ⟨none, [], 0, false, 0⟩ s'
  | accepted {base : Store} {epoch : ℕ} {result : MLSCommitBundleResult} {s' : Store}
      (hasCommit : input.hasCommit)
      (fresh : s.mlsMessageByKey input.senderDeviceID input.idempotencyKey = none)
      (placed : Placed s now input base epoch)
      (addable : ∀ added ∈ input.added, base.mlsAddable input.conversationID added)
      (removable : ∀ removed ∈ input.removed, base.mlsRemovable input.conversationID input.revocationDeviceID removed)
      (allowed : input.revocationDeviceID ≠ "" → base.mlsRevocationCommitAllowed
        input.conversationID input.revocationDeviceID input.senderDeviceID)
      (written : base.writeCommit now newID input epoch = .ok (result, s')) :
      BundleOutcome limits s now newID input result s'

/-- What recording the group and writing the commit each establish, the bundle establishes. -/
theorem BundleOutcome.induct {P : Store → Prop}
    (outcome : BundleOutcome limits s now newID input result s') (start : P s)
    (created : ∀ base, s.mlsGroupEpoch input.conversationID = none → s.createMLSGroup now input = .ok base → P base)
    (written : ∀ base epoch result s', s.Placed now input base epoch → P base →
      base.writeCommit now newID input epoch = .ok (result, s') → P s') : P s' := by
  cases outcome with
  | replayed => exact start
  | known => exact start
  | recorded _ noGroup isCreated => exact created _ noGroup isCreated
  | accepted _ _ placed _ _ _ isWritten =>
    refine written _ _ _ _ placed ?_ isWritten
    cases placed with
    | recorded => exact start
    | created noGroup _ isCreated => exact created _ noGroup isCreated

theorem acceptCommit_ok (accepted : acceptCommit limits base now newID input epoch = .ok (result, s')) :
    (∀ added ∈ input.added, base.mlsAddable input.conversationID added) ∧
    (∀ removed ∈ input.removed, base.mlsRemovable input.conversationID input.revocationDeviceID removed) ∧
    (input.revocationDeviceID ≠ "" → base.mlsRevocationCommitAllowed input.conversationID
      input.revocationDeviceID input.senderDeviceID) ∧
    base.writeCommit now newID input epoch = .ok (result, s') := by
  unfold acceptCommit at accepted
  split at accepted
  · obtain ⟨_, -, rest⟩ := bind_eq_ok.mp accepted
    simpa only [require_ok] using rest
  · simpa only [require_ok] using accepted

theorem placeCommit_ok
    (fresh : input.hasCommit → s.mlsMessageByKey input.senderDeviceID input.idempotencyKey = none)
    (placed : placeCommit limits s now newID input = .ok (result, s')) :
    BundleOutcome limits s now newID input result s' := by
  unfold placeCommit at placed
  split at placed
  · next noGroup =>
    obtain ⟨changes, placed⟩ := require_ok.mp placed
    obtain ⟨base, created, rest⟩ := bind_eq_ok.mp placed
    split at rest
    · next hasCommit =>
      obtain ⟨addable, removable, allowed, written⟩ := acceptCommit_ok rest
      exact .accepted hasCommit (fresh hasCommit) (.created noGroup changes created) addable removable
        allowed written
    · next noCommit =>
      cases rest
      exact .recorded noCommit noGroup created
  · next epoch group =>
    obtain ⟨active, rest⟩ := require_ok.mp placed
    split at rest
    · next hasCommit =>
      obtain ⟨current, rest⟩ := require_ok.mp rest
      obtain ⟨addable, removable, allowed, written⟩ := acceptCommit_ok rest
      exact .accepted hasCommit (fresh hasCommit) (.recorded group active current) addable removable
        allowed written
    · next noCommit =>
      cases rest
      exact .known noCommit group active

/-- A committed bundle passed the checks on its input and sender, and had one of the outcomes. -/
theorem createMLSCommitBundle_ok {request : MLSCommitBundleInput}
    (ok : createMLSCommitBundle limits s now newID request = .ok (result, s')) :
    request.trim.valid ∧
    s.isMemberDevice request.trim.conversationID request.trim.senderAccountID request.trim.senderDeviceID ∧
    BundleOutcome limits s now newID request.trim result s' := by
  simp only [createMLSCommitBundle, require_ok] at ok
  obtain ⟨valid, mem, rest⟩ := ok
  refine ⟨valid, mem, ?_⟩
  split at rest
  · next existing found =>
    obtain ⟨same, done⟩ := require_ok.mp rest
    cases done
    split at found
    · exact .replayed found same
    · cases found
  · next missing =>
    refine placeCommit_ok ?_ rest
    intro hasCommit
    rwa [if_pos hasCommit] at missing

end Store
end Veritra.Storage
