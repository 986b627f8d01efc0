import Veritra.Proofs.Storage.Blobs

/-! # The directory along a run

A call that founds no community or conversation and manages no member leaves the directory as it is,
and every other call makes one of its moves.
-/

namespace Veritra.Storage

open Relational Machine Directory

variable {accountID : AccountID} {given : Answer} {call : Call}

section Frame

variable {limits : Limits} {s s' : Store} {now : Time}

theorem MLSOnly.directory (only : MLSOnly s s') : s'.directory = s.directory := by
  obtain ⟨_, _, rfl⟩ := only
  rfl

namespace Store

variable {eventID : EventID} {messageID : MessageID} {attachmentIDs : List AttachmentID}
  {conversationID : ConversationID} {updatedBy : AccountID}

theorem insertMessageEvent_directory (s : Store) (eventType : Option EventType)
    (envelope : MessageEnvelope) (now : Time) :
    (s.insertMessageEvent eventType envelope now).2.directory = s.directory := by
  cases eventType <;> rfl

theorem enqueueEach_directory (s : Store) (storageKeys : List String) :
    (storageKeys.foldl enqueueBlobDeletion s).directory = s.directory := by
  obtain ⟨_, frame⟩ := s.enqueueEach_frame storageKeys
  rw [frame]
  rfl

theorem revoked_directory (s : Store) (accountID : AccountID) (deviceID : DeviceID) (now : Time) :
    (s.revoked accountID deviceID now).directory = s.directory :=
  (MLSOnly.of_writes (retireMLSDevice_writes _ accountID deviceID now)).directory

theorem completeRecovery_directory {newDeviceID : DeviceID}
    (ok : s.completeRecovery now accountID newDeviceID = .ok (eventID, s')) :
    s'.directory = s.directory := by
  have ok := of_require ok
  obtain ⟨middle, revoking, ok⟩ := bind_eq_ok.mp ok
  have keep : ∀ (middle : Store) (deviceID : DeviceID), middle.directory = s.directory →
      (middle.revoked accountID deviceID now).directory = s.directory :=
    fun middle deviceID same => (middle.revoked_directory accountID deviceID now).trans same
  have revoked : middle.directory = s.directory := revokeEach_preserves keep revoking rfl
  split at ok
  · cases ok
  · cases ok
    exact revoked

theorem MessageMutated.directory {middle : Store} {old new : MessageEnvelope}
    (mutated : MessageMutated s messageID accountID now old new middle) :
    middle.directory = s.directory := by
  obtain ⟨_, rfl⟩ := mutated.frame
  rfl

theorem deleteMessageEnvelope_directory {markerCiphertext : Bytes} {cryptoProtocol : String}
    {cryptoMetadata : CryptoMetadata} {eventType : Option EventType}
    {answer : MessageEnvelope × EventID}
    (ok : s.deleteMessageEnvelope now messageID accountID markerCiphertext cryptoProtocol
      cryptoMetadata eventType = .ok (answer, s')) : s'.directory = s.directory := by
  obtain ⟨_, new, middle, released, mutated, -, -, releasing, rfl⟩ := deleteMessageEnvelope_ok ok
  have release : released.directory = middle.directory := releasing ▸ (enqueueEach_directory _ _).trans rfl
  exact (insertMessageEvent_directory _ _ new now).trans (release.trans mutated.directory)

theorem pruneExpiredContent_directory (s : Store) (now : Time) :
    (s.pruneExpiredContent now).2.directory = s.directory := by
  have redact (start : Store) : start.redactOrphanedMessageEvents.2.directory = start.directory := by
    unfold redactOrphanedMessageEvents
    split <;> rfl
  exact (enqueueEach_directory _ _).trans ((redact _).trans rfl)

theorem deleteAccountData_move {keys : List String}
    (ok : s.deleteAccountData now accountID = .ok (keys, s')) :
    DirectoryMove limits s.directory (.deleteAccountData now accountID) s'.directory := by
  obtain ⟨retired, deleted⟩ := deleteAccountData_ok ok
  have same : retired.directory = s.directory := by
    obtain ⟨_, rfl⟩ := deleted.retiring
    exact (MLSOnly.of_writes (retireEach_writes _ accountID now _)).directory
  refine .accountDeleted (same ▸ deleted.places) (grants_delete (p := (·.accountID = accountID)) ?_ ?_)
  · exact fun m => (and_iff_left trivial).symm
  · exact deleted.memberships.trans (congrArg (·.memberships.delete (·.accountID = accountID)) same)

end Store

/-- The calls that write memberships, communities, channels or new conversations. -/
def Call.writesDirectory : Call → Bool
  | createCommunity .. | createChannel .. | createChannelWithConversation .. | manageCommunityMember ..
  | createOrGetConversation .. | addConversationMember .. | manageConversationMember ..
  | removeConversationMember .. | deleteAccountData .. => true
  | _ => false

/-- Every other call leaves the directory as it is. -/
theorem directory_of_step (ok : step limits s call = .ok (given, s'))
    (other : call.writesDirectory = false) : s'.directory = s.directory := by
  cases call <;> simp only [step] at ok
  all_goals try cases other
  case restart => cases ok; rfl
  all_goals obtain ⟨_, ok, -⟩ := answer_eq_ok ok
  case registerAccount =>
    unfold Store.registerAccount at ok
    split at ok <;> cases ok
    rfl
  case enrollDevice =>
    have ok := of_require ok
    split at ok <;> cases ok
    rfl
  case revokeDevice => exact Store.revokeDevice_ok ok ▸ rfl
  case revokeDeviceWithSyncEvent =>
    exact Store.revokeDeviceTx_ok ok ▸ s.revoked_directory _ _ _
  case completeRecovery => exact Store.completeRecovery_directory ok
  case setAccountStatus =>
    obtain ⟨_, rfl⟩ := Store.setAccountStatus_ok ok
    rfl
  case blockAccount =>
    obtain ⟨_, rfl⟩ := Store.blockAccount_ok ok
    rfl
  case unblockAccount =>
    obtain ⟨_, rfl⟩ := Store.unblockAccount_ok ok
    rfl
  case updateConversationRetention => exact (Store.updateConversationRetention_ok ok).2
  case setConversationPostingPolicy => exact (Store.setConversationPostingPolicy_ok ok).2
  case createMLSCommitBundle => exact (Store.createMLSCommitBundle_ok ok).2.2.mlsWrites.only.directory
  case createMLSMessage => exact (Store.createMLSMessage_ok ok).2.mlsWrites.only.directory
  case confirmMLSRevocation =>
    exact (MLSOnly.of_writes (Store.confirmMLSRevocation_writes ok)).directory
  case createAttachmentEnvelope =>
    obtain ⟨-, _, -, rfl⟩ := Store.createAttachmentEnvelope_ok ok
    rfl
  case deleteAttachment =>
    obtain ⟨-, -, _, rfl, -⟩ := Store.deleteAttachment_ok ok
    rfl
  case saveMessageEnvelope =>
    obtain ⟨_, _, _, rfl⟩ := Store.saveMessageEnvelope_frame ok
    rfl
  case updateMessageEnvelope =>
    obtain ⟨_, new, middle, mutated, -, -, rfl⟩ := Store.updateMessageEnvelope_ok ok
    exact (middle.insertMessageEvent_directory _ new _).trans mutated.directory
  case deleteMessageEnvelope => exact Store.deleteMessageEnvelope_directory ok
  case pruneExpiredContent =>
    cases ok
    exact s.pruneExpiredContent_directory _
  case pruneSyncEventsBatch =>
    have ok := of_require ok
    cases ok
    rfl
  case recordPlainEvent =>
    have ok := of_require ok
    cases ok
    rfl

end Frame

/-- Every committed call moves the directory in one of the ways above. -/
theorem directoryMove_of_step {limits : Limits} {s s' : Store} (ok : step limits s call = .ok (given, s')) :
    DirectoryMove limits s.directory call s'.directory := by
  by_cases writes : call.writesDirectory
  · cases call <;> first | exact absurd writes Bool.false_ne_true | simp only [step] at ok
    all_goals obtain ⟨_, ok, -⟩ := answer_eq_ok ok
    case createCommunity => exact (Store.createCommunity_ok limits ok).2
    case createChannel => exact (Store.createChannel_ok limits ok).2
    case createChannelWithConversation => exact (Store.createChannelWithConversation_ok ok).2
    case manageCommunityMember => exact (Store.manageCommunityMember_ok ok).2
    case createOrGetConversation => exact Store.createOrGetConversation_move ok
    case addConversationMember => exact (Store.addConversationMember_ok ok).2.2
    case manageConversationMember => exact (Store.manageConversationMember_ok ok).2.2
    case removeConversationMember => exact (Store.removeConversationMember_ok limits ok).2.2.2.2
    case deleteAccountData => exact Store.deleteAccountData_move ok
  · rw [directory_of_step ok (Bool.eq_false_iff.mpr writes)]
    refine .kept ?_
    cases call <;> first | rfl | exact absurd rfl writes

end Veritra.Storage
