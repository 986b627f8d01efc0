import Veritra.Proofs.Storage.BundleOutcome
import Veritra.Proofs.Storage.DirectoryMoves
import Veritra.Proofs.Storage.MessageWrites
import Veritra.Proofs.Storage.Prune

/-! # What one committed call can do

Every committed call of the server has one of the effects below. Calls that no invariant of the
MLS state looks into are one case; the others are described by the tables they leave. The proofs
about whole runs go through this classification instead of the operations themselves.
-/

namespace Veritra.Storage

open Relational Machine

variable {s s' middle retired : Store} {accountID : AccountID} {deviceID revokedDeviceID : DeviceID}
  {now : Time} {eventID : EventID} {id : MLSMessageID} {result : CreateMLSMessageResult}
  {limits : Limits} {call : Call} {given : Answer} {conversationID : ConversationID}

namespace Store

variable {deviceIDs : List DeviceID} {Inv : Store → Prop}

theorem mem_accountDeviceIDs {p : Device → Prop} [DecidablePred p] :
    deviceID ∈ s.accountDeviceIDs accountID p ↔ ∃ d ∈ s.devices, d.accountID = accountID ∧ p d ∧ d.id = deviceID := by
  simp only [accountDeviceIDs, List.mem_insertionSort, List.mem_map, List.mem_filter, decide_eq_true_eq, and_assoc]
  rfl

/-- The store after a device is revoked with its event, its removals and its released waits. -/
def revoked (s : Store) (accountID : AccountID) (deviceID : DeviceID) (now : Time) : Store :=
  ((s.markRevoked (fun d => d.id = deviceID ∧ d.accountID = accountID) now).insertSyncEvent
    .deviceRevoked (some accountID) none (.device deviceID) now).2.retireMLSDevice accountID deviceID now

theorem revokeDeviceTx_ok
    (ok : s.revokeDeviceTx accountID deviceID (some .deviceRevoked) now = .ok (eventID, s')) :
    s' = s.revoked accountID deviceID now := by
  have ok := of_require ok
  cases ok
  rfl

/-- A property that each single revocation keeps holds after a list of them. -/
theorem revokeEach_preserves (keep : ∀ s deviceID, Inv s → Inv (s.revoked accountID deviceID now))
    (ok : s.revokeEach accountID now deviceIDs = .ok s') (start : Inv s) : Inv s' := by
  induction deviceIDs generalizing s with
  | nil =>
    cases ok
    exact start
  | cons deviceID rest ih =>
    obtain ⟨⟨eventID, middle⟩, first, ok⟩ := bind_eq_ok.mp ok
    rw [revokeDeviceTx_ok first] at ok
    exact ih ok (keep s deviceID start)

/-- A property that each single retirement keeps holds after a list of them. -/
theorem retireEach_preserves
    (keep : ∀ s deviceID, Inv s → Inv (s.retireMLSDevice accountID deviceID now)) (start : Inv s) :
    Inv (s.retireEach accountID now deviceIDs) := by
  induction deviceIDs generalizing s with
  | nil => exact start
  | cons deviceID rest ih => exact ih (keep s deviceID start)

/-- A completed recovery: the active devices are marked, each is revoked, and a device is added. -/
structure Recovered (s : Store) (now : Time) (accountID : AccountID) (middle s' : Store) : Prop where
  revoked : (s.markRevoked (fun d => d.accountID = accountID ∧ d.revokedAt = none) now).revokeEach
    accountID now (s.accountDeviceIDs accountID (·.revokedAt = none)) = .ok middle
  added : Calm middle s'

theorem completeRecovery_ok {newDeviceID : DeviceID}
    (ok : s.completeRecovery now accountID newDeviceID = .ok (eventID, s')) :
    ∃ middle, Recovered s now accountID middle s' := by
  have ok := of_require ok
  obtain ⟨middle, revoked, ok⟩ := bind_eq_ok.mp ok
  split at ok
  · cases ok
  · next devices inserted =>
    cases ok
    refine ⟨middle, revoked, Calm.trans ?_ (.event _ ⟨rfl, rfl⟩)⟩
    refine .addDevices middle devices ?_
    intro d mem
    exact (Table.mem_of_insert? inserted d).mpr (.inl mem)

/-- A deleted account: its devices are revoked and retired, and its memberships go. -/
structure AccountDeleted (s : Store) (now : Time) (accountID : AccountID) (retired s' : Store) :
    Prop where
  retiring : ∃ blobDeletions, retired = ({ s with blobDeletions }.markRevoked
    (·.accountID = accountID) now).retireEach accountID now (s.accountDeviceIDs accountID fun _ => True)
  mls : s'.mls = retired.mls
  messages : s'.messages = retired.messages
  pruneMarks : s'.pruneMarks = retired.pruneMarks
  events : s'.events = retired.events
  devices : s'.devices = retired.devices
  memberships : s'.memberships = retired.memberships.delete (·.accountID = accountID)
  places : Directory.SamePlaces retired.directory s'.directory

theorem deleteAccountData_ok {keys : List String}
    (ok : s.deleteAccountData now accountID = .ok (keys, s')) :
    ∃ retired, AccountDeleted s now accountID retired s' := by
  unfold deleteAccountData at ok
  split at ok
  · have ok := of_require ok
    have ok := of_require ok
    obtain ⟨blobDeletions, frame⟩ := s.enqueueEach_frame
      ((s.attachments.rows.filter (·.ownerAccountID = accountID)).map (·.storageKey))
    dsimp only at ok
    rw [frame] at ok
    cases ok
    exact ⟨_, ⟨blobDeletions, rfl⟩, rfl, rfl, rfl, rfl, rfl, rfl, ⟨rfl, rfl, rfl⟩⟩
  · cases ok

/-- What a committed single message did: it was a retry, or it was stored. -/
inductive MessageOutcome (s : Store) (now : Time) (id : MLSMessageID) (input : CreateMLSMessageInput) :
    CreateMLSMessageResult → Store → Prop
  | replayed {existing : MLSMessage}
      (found : s.mlsMessageByKey input.senderDeviceID input.idempotencyKey = some existing)
      (conversation : existing.conversationID = input.conversationID) :
      MessageOutcome s now id input ⟨existing, true, 0⟩ s
  | stored {row : MLSMessageRow} {message : MLSMessage} {middle s' : Store} {eventID : EventID}
      (conversation : row.conversationID = input.conversationID)
      (storing : StoredMessage s id row message middle)
      (allowed : input.revocationDeviceID ≠ "" → s.mlsRevocationCommitAllowed input.conversationID
        input.revocationDeviceID input.senderDeviceID)
      (after : s' = if input.revocationDeviceID ≠ "" then
          (middle.submitRevocation input.conversationID input.revocationDeviceID message.id
            input.senderDeviceID now).2
        else middle) : MessageOutcome s now id input ⟨message, false, eventID⟩ s'

theorem createMLSMessage_ok {request : CreateMLSMessageInput}
    (ok : s.createMLSMessage now id request = .ok (result, s')) :
    ¬ s.hasMLSGroup request.trim.conversationID ∧ MessageOutcome s now id request.trim result s' := by
  unfold createMLSMessage at ok
  dsimp only at ok
  split at ok
  · have ok := of_require ok
    have ok := of_require ok
    obtain ⟨noGroup, ok⟩ := require_ok.mp ok
    refine ⟨noGroup, ?_⟩
    split at ok
    · next existing found =>
      obtain ⟨same, ok⟩ := require_ok.mp ok
      cases ok
      exact .replayed found same.1
    · obtain ⟨allowed, ok⟩ := require_ok.mp ok
      obtain ⟨recipient, -, ok⟩ := bind_eq_ok.mp ok
      obtain ⟨⟨message, middle⟩, storing, ok⟩ := bind_eq_ok.mp ok
      have stored := storeMLSMessage_ok storing
      cases ok
      refine .stored ?_ stored allowed ?_
      · rfl
      · split <;> rfl
  · cases ok

end Store

def Call.isMessage : Call → Bool
  | saveMessageEnvelope .. | updateMessageEnvelope .. | deleteMessageEnvelope ..
  | pruneExpiredContent .. => true
  | _ => false

/-- The calls that take nothing away and write no MLS table and no envelope. -/
def Call.isHarmless : Call → Bool
  | revokeDevice .. | revokeDeviceWithSyncEvent .. | completeRecovery .. | deleteAccountData ..
  | removeConversationMember .. | createMLSCommitBundle .. | createMLSMessage ..
  | confirmMLSRevocation .. | pruneSyncEventsBatch .. => false
  | call => !call.isMessage

def Call.writesBlobs : Call → Bool
  | createAttachmentEnvelope .. | deleteAttachment .. | saveMessageEnvelope .. | deleteMessageEnvelope ..
  | pruneExpiredContent .. | deleteAccountData .. => true
  | _ => false

/-- What a committed call did. -/
inductive Effect (limits : Limits) (s : Store) : Call → Answer → Store → Prop
  | harmless {call : Call} {answer : Answer} {s' : Store} (isHarmless : call.isHarmless)
      (harmless : Harmless s s') (blobs : call.writesBlobs = false → SameBlobs s s') :
      Effect limits s call answer s'
  | removed {now : Time} {conversationID : ConversationID} {actor target : AccountID}
      {answer : Answer} {s' : Store} (quiet : Quiet s s') (devices : s'.devices = s.devices)
      (memberships : s'.memberships = s.memberships.delete fun m =>
        m.scope = .conversation conversationID ∧ m.accountID = target)
      (blobs : SameBlobs s s') : Effect limits s (.removeConversationMember now conversationID actor target) answer s'
  | marked {now : Time} {accountID : AccountID} {deviceID : DeviceID} {answer : Answer} :
      Effect limits s (.revokeDevice now accountID deviceID) answer
        (s.markRevoked (fun d => d.id = deviceID ∧ d.accountID = accountID) now)
  | revoked {now : Time} {accountID : AccountID} {deviceID : DeviceID} {answer : Answer} :
      Effect limits s (.revokeDeviceWithSyncEvent now accountID deviceID) answer
        (s.revoked accountID deviceID now)
  | recovered {now : Time} {accountID : AccountID} {newDeviceID : DeviceID} {answer : Answer}
      {middle s' : Store} (recovered : s.Recovered now accountID middle s') :
      Effect limits s (.completeRecovery now accountID newDeviceID) answer s'
  | deleted {now : Time} {accountID : AccountID} {answer : Answer} {retired s' : Store}
      (deleted : s.AccountDeleted now accountID retired s') :
      Effect limits s (.deleteAccountData now accountID) answer s'
  | bundle {now : Time} {newID : ℕ → MLSMessageID} {request : MLSCommitBundleInput}
      {result : MLSCommitBundleResult} {s' : Store} (valid : request.trim.valid)
      (mem : s.isMemberDevice request.trim.conversationID request.trim.senderAccountID
        request.trim.senderDeviceID)
      (outcome : Store.BundleOutcome limits s now newID request.trim result s') :
      Effect limits s (.createMLSCommitBundle now newID request) (.bundle result) s'
  | single {now : Time} {id : MLSMessageID} {request : CreateMLSMessageInput}
      {result : CreateMLSMessageResult} {s' : Store}
      (noGroup : ¬ s.hasMLSGroup request.trim.conversationID)
      (outcome : s.MessageOutcome now id request.trim result s') :
      Effect limits s (.createMLSMessage now id request) (.mlsMessage result) s'
  | confirmed {now : Time} {conversationID : ConversationID} {revokedDeviceID : DeviceID}
      {accountID : AccountID} {deviceID : DeviceID} {eventID : EventID} {s' : Store}
      (confirmed : s.confirmMLSRevocation now conversationID revokedDeviceID accountID deviceID = .ok (eventID, s')) :
      Effect limits s (.confirmMLSRevocation now conversationID revokedDeviceID accountID deviceID)
        (.event eventID) s'
  | message {call : Call} {answer : Answer} {s' : Store} (isMessage : call.isMessage)
      (writes : MessageWrites s s') : Effect limits s call answer s'
  | pruned {now olderThan : Time} {count : ℕ} {s' : Store}
      (pruned : s.pruneSyncEventsBatch now olderThan = .ok (count, s')) :
      Effect limits s (.pruneSyncEventsBatch now olderThan) (.pruned count []) s'

theorem Effect.calm {answer : Answer} (isHarmless : call.isHarmless) (calm : Calm s s') :
    Effect limits s call answer s' :=
  .harmless isHarmless calm.toHarmless fun _ => calm.blobs

/-- A wrapped operation commits exactly when the operation does. -/
theorem answer_eq_ok {α : Type} {wrap : α → Answer} {result : Except StoreError (α × Store)}
    (ok : answer wrap result = .ok (given, s')) :
    ∃ value, result = .ok (value, s') ∧ wrap value = given := by
  cases result with
  | error refusal => cases ok
  | ok pair =>
    cases ok
    exact ⟨pair.1, rfl, rfl⟩

theorem EventType.isOrdinary_of_isPlain (type : EventType) (plain : type.isPlain) : type.isOrdinary := by
  revert plain
  cases type <;> decide

theorem Payload.envelope_of_isPlain (payload : Payload) (plain : payload.isPlain) :
    payload.envelope = none := by
  cases payload <;> first | rfl | cases plain

/-- Every committed call has one of the effects. -/
theorem effect_of_step (ok : step limits s call = .ok (given, s')) : Effect limits s call given s' := by
  cases call <;> simp only [step] at ok
  case restart =>
    cases ok
    exact .calm rfl ⟨.of_eq rfl rfl rfl rfl rfl rfl, ⟨rfl, rfl, rfl⟩⟩
  all_goals obtain ⟨_, ok, same⟩ := answer_eq_ok ok
  case pruneExpiredContent =>
    cases ok
    exact .message rfl (s.pruneExpiredContent_writes _)
  case registerAccount => exact .calm rfl (Store.registerAccount_calm ok)
  case enrollDevice => exact .calm rfl (Store.enrollDevice_calm ok)
  case revokeDevice =>
    rw [Store.revokeDevice_ok ok]
    exact .marked
  case revokeDeviceWithSyncEvent =>
    rw [Store.revokeDeviceTx_ok ok]
    exact .revoked
  case completeRecovery =>
    obtain ⟨_, recovered⟩ := Store.completeRecovery_ok ok
    exact .recovered recovered
  case deleteAccountData =>
    obtain ⟨_, deleted⟩ := Store.deleteAccountData_ok ok
    exact .deleted deleted
  case setAccountStatus =>
    obtain ⟨_, rfl⟩ := Store.setAccountStatus_ok ok
    exact .calm rfl ⟨.of_eq rfl rfl rfl rfl rfl rfl, ⟨rfl, rfl, rfl⟩⟩
  case blockAccount =>
    obtain ⟨_, rfl⟩ := Store.blockAccount_ok ok
    exact .calm rfl ⟨.of_eq rfl rfl rfl rfl rfl rfl, ⟨rfl, rfl, rfl⟩⟩
  case unblockAccount =>
    obtain ⟨_, rfl⟩ := Store.unblockAccount_ok ok
    exact .calm rfl ⟨.of_eq rfl rfl rfl rfl rfl rfl, ⟨rfl, rfl, rfl⟩⟩
  case createCommunity => exact .calm rfl (Store.createCommunity_ok limits ok).1
  case createChannel => exact .calm rfl (Store.createChannel_ok limits ok).1
  case createChannelWithConversation => exact .calm rfl (Store.createChannelWithConversation_ok ok).1
  case manageCommunityMember => exact .calm rfl (Store.manageCommunityMember_ok ok).1
  case createOrGetConversation => exact .calm rfl (Store.createOrGetConversation_ok ok).1
  case addConversationMember => exact .calm rfl (Store.addConversationMember_ok ok).1
  case manageConversationMember => exact .calm rfl (Store.manageConversationMember_ok ok).1
  case removeConversationMember =>
    obtain ⟨quiet, devices, memberships, blobs, -⟩ := Store.removeConversationMember_ok limits ok
    exact .removed quiet devices memberships blobs
  case updateConversationRetention => exact .calm rfl (Store.updateConversationRetention_ok ok).1
  case setConversationPostingPolicy => exact .calm rfl (Store.setConversationPostingPolicy_ok ok).1
  case createMLSCommitBundle =>
    obtain ⟨valid, mem, outcome⟩ := Store.createMLSCommitBundle_ok ok
    exact same ▸ .bundle valid mem outcome
  case createMLSMessage =>
    obtain ⟨noGroup, outcome⟩ := Store.createMLSMessage_ok ok
    exact same ▸ .single noGroup outcome
  case confirmMLSRevocation => exact same ▸ .confirmed ok
  case createAttachmentEnvelope =>
    obtain ⟨-, _, -, rfl⟩ := Store.createAttachmentEnvelope_ok ok
    exact .harmless rfl (.of_eq rfl rfl rfl rfl rfl rfl) fun kept => by cases kept
  case deleteAttachment =>
    obtain ⟨-, -, _, rfl, -⟩ := Store.deleteAttachment_ok ok
    exact .harmless rfl (.of_eq rfl rfl rfl rfl rfl rfl) fun kept => by cases kept
  case saveMessageEnvelope => exact .message rfl (Store.saveMessageEnvelope_writes ok)
  case updateMessageEnvelope => exact .message rfl (Store.updateMessageEnvelope_writes ok)
  case deleteMessageEnvelope => exact .message rfl (Store.deleteMessageEnvelope_writes ok)
  case pruneSyncEventsBatch => exact same ▸ .pruned ok
  case recordPlainEvent =>
    obtain ⟨plain, ok⟩ := require_ok.mp ok
    cases ok
    exact .calm rfl (.event s ⟨EventType.isOrdinary_of_isPlain _ plain.1, Payload.envelope_of_isPlain _ plain.2⟩)

/-- The groups and their rosters are unchanged. -/
structure SameGroups (s s' : Store) : Prop where
  groups : s'.mls.groups = s.mls.groups
  roster : s'.mls.devices = s.mls.devices

/-- The groups, their rosters and the MLS messages are unchanged. -/
structure SameMLS (s s' : Store) : Prop extends SameGroups s s' where
  messages : s'.mls.messages = s.mls.messages

namespace SameMLS

variable {s'' : Store}

theorem of_mls (same : s'.mls = s.mls) : SameMLS s s' := by
  refine ⟨⟨?_, ?_⟩, ?_⟩ <;> rw [same]

theorem of_writes (writes : RevocationWrites s s') : SameMLS s s' :=
  ⟨⟨writes.groups, writes.roster⟩, writes.mlsMessages⟩

theorem trans (first : SameMLS s s') (second : SameMLS s' s'') : SameMLS s s'' :=
  ⟨⟨second.groups.trans first.groups, second.roster.trans first.roster⟩, second.messages.trans first.messages⟩

end SameMLS

theorem Store.revoked_sameMLS (s : Store) (accountID : AccountID) (deviceID : DeviceID) (now : Time) :
    SameMLS s (s.revoked accountID deviceID now) := by
  refine .trans ?_ (.of_writes (retireMLSDevice_writes _ accountID deviceID now))
  exact .of_mls rfl

theorem Store.Recovered.sameMLS (recovered : s.Recovered now accountID middle s') : SameMLS s s' := by
  have revoked : SameMLS s middle := by
    refine revokeEach_preserves ?_ recovered.revoked (.of_mls rfl)
    intro middle deviceID same
    exact same.trans (middle.revoked_sameMLS accountID deviceID now)
  exact revoked.trans (.of_mls recovered.added.mls)

theorem Store.AccountDeleted.sameMLS (deleted : s.AccountDeleted now accountID retired s') :
    SameMLS s s' := by
  obtain ⟨blobDeletions, rfl⟩ := deleted.retiring
  refine .trans ?_ (.of_mls deleted.mls)
  refine .trans ?_ (.of_writes (retireEach_writes _ accountID now _))
  exact .of_mls rfl

theorem Store.confirmMLSRevocation_writes
    (confirmed : s.confirmMLSRevocation now conversationID revokedDeviceID accountID deviceID =
      .ok (eventID, s')) : RevocationWrites s s' := by
  unfold confirmMLSRevocation at confirmed
  split at confirmed
  · obtain rfl := congrArg Prod.snd (Except.ok.inj confirmed)
    exact (s.confirmRequired_writes _ now).trans (completeMLSRevocationIfConfirmed_writes _ _ _ now)
  · split at confirmed <;> cases confirmed
    exact .refl _

theorem Store.MessageOutcome.after_writes {input : CreateMLSMessageInput}
    (outcome : s.MessageOutcome now id input result s') :
    s' = s ∨ ∃ row message middle, row.conversationID = input.conversationID ∧
      StoredMessage s id row message middle ∧ RevocationWrites middle s' := by
  cases outcome with
  | replayed => exact .inl rfl
  | @stored row message middle _ _ conversation storing allowed after =>
    refine .inr ⟨row, message, middle, conversation, storing, ?_⟩
    rw [after]
    split
    · exact submitRevocation_writes _ _ _ _ _ now
    · exact .refl _

def Call.writesMLSMessages : Call → Bool
  | createMLSCommitBundle .. | createMLSMessage .. | pruneSyncEventsBatch .. => true
  | _ => false

section

variable (effect : Effect limits s call given s')

include effect

/-- Only bundles, single messages and retention touch the MLS messages or the groups. -/
theorem Effect.sameMLS (other : call.writesMLSMessages = false) : SameMLS s s' := by
  cases effect with
  | harmless _ harmless => exact .of_mls harmless.mls
  | removed quiet _ _ => exact .of_mls quiet.mls
  | marked => exact .of_mls rfl
  | revoked => exact s.revoked_sameMLS _ _ _
  | recovered recovered => exact recovered.sameMLS
  | deleted deleted => exact deleted.sameMLS
  | bundle => cases other
  | single => cases other
  | confirmed confirmed => exact .of_writes (Store.confirmMLSRevocation_writes confirmed)
  | message _ writes => exact .of_mls writes.mls
  | pruned => cases other

/-- Only bundles touch the groups and their rosters. -/
theorem Effect.sameGroups (other : ∀ now newID request, call ≠ .createMLSCommitBundle now newID request) :
    SameGroups s s' := by
  by_cases writes : call.writesMLSMessages = false
  · exact (effect.sameMLS writes).toSameGroups
  · cases effect with
    | bundle => exact absurd rfl (other _ _ _)
    | single _ outcome =>
      rcases outcome.after_writes with rfl | ⟨row, message, middle, -, storing, after⟩
      · exact ⟨rfl, rfl⟩
      · obtain ⟨_, _, rfl⟩ := storing.frame
        exact ⟨after.groups, after.roster⟩
    | pruned pruned =>
      have pruned := of_require pruned
      cases pruned
      exact ⟨rfl, rfl⟩
    | harmless isHarmless _ =>
      cases call <;> first | exact absurd rfl writes | cases isHarmless
    | message isMessage _ =>
      cases call <;> first | exact absurd rfl writes | cases isMessage
    | _ => exact absurd rfl writes

/-- A call is a bundle with its outcome, or it leaves the groups. -/
theorem Effect.bundle_or_sameGroups :
    (∃ now newID request result, call = .createMLSCommitBundle now newID request ∧ given = .bundle result ∧
      request.trim.valid ∧ s.isMemberDevice request.trim.conversationID request.trim.senderAccountID
        request.trim.senderDeviceID ∧ Store.BundleOutcome limits s now newID request.trim result s') ∨
      (∀ now newID request, call ≠ .createMLSCommitBundle now newID request) ∧ SameGroups s s' := by
  by_cases isBundle : ∃ now newID request, call = .createMLSCommitBundle now newID request
  · obtain ⟨now, newID, request, rfl⟩ := isBundle
    cases effect with
    | harmless isHarmless => cases isHarmless
    | message isMessage => cases isMessage
    | bundle valid mem outcome => exact .inl ⟨now, newID, request, _, rfl, rfl, valid, mem, outcome⟩
  · have other : ∀ now newID request, call ≠ .createMLSCommitBundle now newID request :=
      fun now newID request here => isBundle ⟨now, newID, request, here⟩
    exact .inr ⟨other, effect.sameGroups other⟩

end

/-- The event is not about an envelope and carries none. -/
def SyncEvent.hasNoEnvelope (e : SyncEvent) : Prop :=
  e.eventType.isMessageEnvelope = false ∧ e.payload.envelope = none

/-- The envelopes and the prune marks are unchanged, and the appended events carry no envelope. -/
structure KeepsMessages (s s' : Store) : Prop where
  messages : s'.messages = s.messages
  pruneMarks : s'.pruneMarks = s.pruneMarks
  grows : s.events.Grows SyncEvent.hasNoEnvelope s'.events

theorem EventType.isMessageEnvelope_of_isOrdinary (type : EventType) (ordinary : type.isOrdinary) :
    type.isMessageEnvelope = false := by
  revert ordinary
  cases type <;> decide

namespace KeepsMessages

variable {s'' : Store}

theorem trans (first : KeepsMessages s s') (second : KeepsMessages s' s'') : KeepsMessages s s'' :=
  ⟨second.messages.trans first.messages, second.pruneMarks.trans first.pruneMarks, first.grows.trans second.grows⟩

theorem of_quiet (quiet : Quiet s s') : KeepsMessages s s' :=
  ⟨quiet.messages, quiet.pruneMarks, quiet.grows.mono fun e ordinary =>
    ⟨e.eventType.isMessageEnvelope_of_isOrdinary ordinary.1, ordinary.2⟩⟩

theorem of_writes (writes : RevocationWrites s s') : KeepsMessages s s' := by
  refine ⟨writes.messages, writes.pruneMarks, writes.grows.mono ?_⟩
  rintro e ⟨-, -, -, type, deviceID, accountID, shape⟩
  rw [SyncEvent.hasNoEnvelope, shape]
  rcases type with type | type <;> rw [type] <;> exact ⟨rfl, rfl⟩

theorem of_eq (messages : s'.messages = s.messages) (pruneMarks : s'.pruneMarks = s.pruneMarks)
    (events : s'.events = s.events) : KeepsMessages s s' :=
  ⟨messages, pruneMarks, events ▸ .refl _⟩

end KeepsMessages

/-- Only the MLS tables and the events may differ. -/
def MLSOnly (s s' : Store) : Prop := ∃ mls events, s' = { s with mls, events }

theorem MLSOnly.of_writes (writes : RevocationWrites s s') : MLSOnly s s' := by
  obtain ⟨⟨_, _, _, rfl⟩, -⟩ := writes
  exact ⟨_, _, rfl⟩

/-- A change of the MLS tables whose events carry no envelope. -/
structure MLSWrites (s s' : Store) : Prop where
  only : MLSOnly s s'
  grows : s.events.Grows SyncEvent.hasNoEnvelope s'.events

namespace MLSWrites

variable {s'' : Store}

theorem refl (s : Store) : MLSWrites s s := ⟨⟨_, _, rfl⟩, .refl _⟩

theorem trans (first : MLSWrites s s') (second : MLSWrites s' s'') : MLSWrites s s'' := by
  refine ⟨?_, first.grows.trans second.grows⟩
  obtain ⟨_, _, rfl⟩ := first.only
  obtain ⟨_, _, rfl⟩ := second.only
  exact ⟨_, _, rfl⟩

theorem of_writes (writes : RevocationWrites s s') : MLSWrites s s' :=
  ⟨.of_writes writes, (KeepsMessages.of_writes writes).grows⟩

theorem keepsMessages (writes : MLSWrites s s') : KeepsMessages s s' := by
  obtain ⟨⟨_, _, rfl⟩, grows⟩ := writes
  exact ⟨rfl, rfl, grows⟩

end MLSWrites

theorem SyncEvent.isMLSMessageNotice.hasNoEnvelope {e : SyncEvent} (notice : e.isMLSMessageNotice) :
    e.hasNoEnvelope := by
  obtain ⟨type, -, id, welcome, shape⟩ := notice
  rw [SyncEvent.hasNoEnvelope, type, shape]
  exact ⟨rfl, rfl⟩

namespace Store

variable {input : MLSCommitBundleInput} {base : Store} {newID : ℕ → MLSMessageID}

theorem revoked_keepsMessages (s : Store) (accountID : AccountID) (deviceID : DeviceID) (now : Time) :
    KeepsMessages s (s.revoked accountID deviceID now) := by
  refine .trans ?_ (.of_writes (retireMLSDevice_writes _ accountID deviceID now))
  refine .trans ?_ (.of_quiet (.of_calm (.event _ ⟨rfl, rfl⟩)))
  exact .of_eq rfl rfl rfl

theorem Recovered.keepsMessages (recovered : s.Recovered now accountID middle s') : KeepsMessages s s' := by
  have revoked : KeepsMessages s middle := by
    refine revokeEach_preserves ?_ recovered.revoked (.of_eq rfl rfl rfl)
    intro middle deviceID same
    exact same.trans (middle.revoked_keepsMessages accountID deviceID now)
  exact revoked.trans (.of_quiet recovered.added.toQuiet)

theorem AccountDeleted.keepsMessages (deleted : s.AccountDeleted now accountID retired s') :
    KeepsMessages s s' := by
  obtain ⟨blobDeletions, rfl⟩ := deleted.retiring
  refine .trans ?_ (.of_eq deleted.messages deleted.pruneMarks deleted.events)
  refine .trans ?_ (.of_writes (retireEach_writes _ accountID now _))
  exact .of_eq rfl rfl rfl

theorem createMLSGroup_mlsWrites (created : s.createMLSGroup now input = .ok base) : MLSWrites s base := by
  obtain ⟨middle, recorded, rfl⟩ := createMLSGroup_ok created
  obtain ⟨_, _, rfl⟩ := recorded.frame
  exact ⟨⟨_, _, rfl⟩, .refl _⟩

theorem writeCommit_mlsWrites {epoch : ℕ} {result : MLSCommitBundleResult}
    (written : base.writeCommit now newID input epoch = .ok (result, s')) : MLSWrites base s' := by
  obtain ⟨commit, welcomes, middle, writes, -, -, -, rfl⟩ := writeCommit_ok written
  refine .trans ?_ (.of_writes (middle.finishCommit_writes now input commit))
  have grows := writes.grows.mono fun _ => SyncEvent.isMLSMessageNotice.hasNoEnvelope
  obtain ⟨_, _, _, _, rfl⟩ := writes.frame
  exact ⟨⟨_, _, rfl⟩, grows⟩

theorem BundleOutcome.mlsWrites {result : MLSCommitBundleResult}
    (outcome : BundleOutcome limits s now newID input result s') : MLSWrites s s' :=
  outcome.induct (.refl s) (fun _ _ created => createMLSGroup_mlsWrites created)
    fun _ _ _ _ _ placed written => placed.trans (writeCommit_mlsWrites written)

theorem MessageOutcome.mlsWrites {input : CreateMLSMessageInput}
    (outcome : s.MessageOutcome now id input result s') : MLSWrites s s' := by
  rcases outcome.after_writes with rfl | ⟨row, message, middle, -, storing, after⟩
  · exact .refl _
  · refine .trans ?_ (.of_writes after)
    have grows := storing.grows.mono fun _ => SyncEvent.isMLSMessageNotice.hasNoEnvelope
    obtain ⟨_, _, rfl⟩ := storing.frame
    exact ⟨⟨_, _, rfl⟩, grows⟩

end Store

/-- Retention is the only call that deletes events. -/
def Call.isPrune : Call → Bool
  | pruneSyncEventsBatch .. => true
  | _ => false

section

variable (effect : Effect limits s call given s')

include effect

theorem Effect.of_isPrune (isPrune : call.isPrune ≠ false) :
    ∃ now olderThan count, call = .pruneSyncEventsBatch now olderThan ∧
      s.pruneSyncEventsBatch now olderThan = .ok (count, s') := by
  cases effect with
  | pruned pruned => exact ⟨_, _, _, rfl, pruned⟩
  | harmless isHarmless _ => cases call <;> first | exact absurd rfl isPrune | cases isHarmless
  | message isMessage _ => cases call <;> first | exact absurd rfl isPrune | cases isMessage
  | _ => exact absurd rfl isPrune

theorem Effect.keepsMessages (notMessage : call.isMessage = false) (notPrune : call.isPrune = false) :
    KeepsMessages s s' := by
  cases effect with
  | harmless _ harmless => exact .of_quiet harmless.toQuiet
  | removed quiet _ _ => exact .of_quiet quiet
  | marked => exact .of_eq rfl rfl rfl
  | revoked => exact s.revoked_keepsMessages _ _ _
  | recovered recovered => exact recovered.keepsMessages
  | deleted deleted => exact deleted.keepsMessages
  | bundle _ _ outcome | single _ outcome => exact outcome.mlsWrites.keepsMessages
  | confirmed confirmed => exact .of_writes (Store.confirmMLSRevocation_writes confirmed)
  | message isMessage _ =>
    rw [notMessage] at isMessage
    cases isMessage
  | pruned => cases notPrune

/-- Only retention deletes events or moves the prune marks. -/
theorem Effect.revises (notPrune : call.isPrune = false) :
    s'.pruneMarks = s.pruneMarks ∧ s.events.Revises SyncEvent.Rewritten (fun _ => True) s'.events := by
  by_cases isMessage : call.isMessage = false
  · have keeps := effect.keepsMessages isMessage notPrune
    exact ⟨keeps.pruneMarks, (Log.Revises.of_grows .refl keeps.grows).mono fun _ _ => trivial⟩
  · cases effect with
    | message _ writes => exact ⟨writes.pruneMarks, writes.events.mono fun _ _ => trivial⟩
    | harmless isHarmless _ => cases call <;> first | exact absurd rfl isMessage | cases isHarmless
    | _ => exact absurd rfl isMessage

end

/-- Between the two stores ids were given upwards, events were at most redacted, and those that meet the condition
may be gone. -/
structure EventsKept (gone : SyncEvent → Prop) (s s' : Store) : Prop where
  last_le : s.events.last ≤ s'.events.last
  known : ∀ e' ∈ s'.events, (∃ e ∈ s.events, e.Rewritten e') ∨ s.events.last < e'.id
  kept : ∀ e ∈ s.events, (∃ e' ∈ s'.events, e.Rewritten e') ∨ gone e

/-- The call is a sweep with a cutoff above the event. -/
def Call.prunes (call : Call) (e : SyncEvent) : Prop :=
  ∃ now olderThan, call = .pruneSyncEventsBatch now olderThan ∧ e.createdAt < olderThan

theorem events_of_step (ok : step limits s call = .ok (given, s')) : EventsKept call.prunes s s' := by
  have effect := effect_of_step ok
  by_cases isPrune : call.isPrune = false
  · obtain ⟨-, revises⟩ := effect.revises isPrune
    exact ⟨revises.last_le, fun e' mem => (revises.fresh e' mem).imp_right And.left,
      fun e mem => .inl (revises.keeps e mem)⟩
  · obtain ⟨now, olderThan, _, rfl, pruned⟩ := effect.of_isPrune isPrune
    have batch := Store.pruneSyncEventsBatch_ok pruned
    refine ⟨batch.last.ge, fun e' mem => .inl ⟨e', ((batch.events e').mp mem).1, .refl e'⟩, fun e mem => ?_⟩
    by_cases listed : e ∈ s.oldSyncEvents olderThan
    · exact .inr ⟨now, olderThan, rfl, (Store.mem_of_mem_oldSyncEvents listed).2⟩
    · exact .inl ⟨e, (batch.events e).mpr ⟨mem, listed⟩, .refl e⟩

end Veritra.Storage
