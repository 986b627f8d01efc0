import Veritra.Machine.Run
import Veritra.Model.Storage.MLSMessages
import Veritra.Model.Storage.SyncListing

/-! # The server as a transactional service

Every operation of the store that writes one of the modelled tables is a call, served as one
transaction. The store has a single connection, so any interleaving of any number of clients and
of the retention sweep is some sequence of these calls; pruning runs batch by batch, and other
calls may come between two batches. The clock reading and the generated ids of a call are part of
it. Operations that only append a plain event are one call, with the event as its argument.
-/

namespace Veritra.Storage

open Relational Machine

namespace EventType

/-- The types written by operations whose own tables are outside the model. -/
def isPlain : EventType → Bool
  | deviceUpdated | reactionCreated | reactionDeleted | readReceiptUpdated | callState | callSignaling
  | accountRecoveryPending | accountRecoveryCancelled | accountRecoveryKeySet
  | accountPasswordLeakSuspected => true
  | _ => false

end EventType

def Payload.isPlain : Payload → Bool
  | ofAccount _ | call _ | device _ | other => true
  | _ => false

/-- A call of the store, with the clock reading and the ids it generates. -/
inductive Call
  | registerAccount (now : Time) (accountID : AccountID) (role : Role) (deviceID : DeviceID)
  | enrollDevice (now : Time) (accountID : AccountID) (deviceID : DeviceID)
  | revokeDevice (now : Time) (accountID : AccountID) (deviceID : DeviceID)
  | revokeDeviceWithSyncEvent (now : Time) (accountID : AccountID) (deviceID : DeviceID)
  | completeRecovery (now : Time) (accountID : AccountID) (newDeviceID : DeviceID)
  | deleteAccountData (now : Time) (accountID : AccountID)
  | setAccountStatus (actorAccountID targetAccountID : AccountID) (status : AccountStatus)
  | blockAccount (blockerAccountID blockedAccountID : AccountID)
  | unblockAccount (blockerAccountID blockedAccountID : AccountID)
  | createCommunity (now : Time) (id : CommunityID) (createdBy : AccountID)
  | createChannel (id : ChannelID) (communityID : CommunityID) (kind : ChannelKind)
      (createdBy : AccountID)
  | createChannelWithConversation (now : Time) (channelID : ChannelID)
      (conversationID : ConversationID) (communityID : CommunityID) (kind : ChannelKind)
      (createdBy : AccountID)
  | manageCommunityMember (now : Time) (communityID : CommunityID)
      (actorAccountID targetAccountID : AccountID) (role : Role)
  | createOrGetConversation (now : Time) (id : ConversationID) (input : CreateConversationInput)
  | addConversationMember (now : Time) (conversationID : ConversationID) (accountID : AccountID)
      (role : Role)
  | manageConversationMember (now : Time) (conversationID : ConversationID)
      (actorAccountID targetAccountID : AccountID) (role : Role)
  | removeConversationMember (now : Time) (conversationID : ConversationID)
      (actorAccountID targetAccountID : AccountID)
  | updateConversationRetention (now : Time) (conversationID : ConversationID)
      (updatedBy : AccountID) (retentionSeconds : Option ℕ)
  | setConversationPostingPolicy (now : Time) (conversationID : ConversationID)
      (updatedBy : AccountID) (policy : PostingPolicy)
  | createMLSCommitBundle (now : Time) (newID : ℕ → MLSMessageID) (input : MLSCommitBundleInput)
  | createMLSMessage (now : Time) (id : MLSMessageID) (input : CreateMLSMessageInput)
  | confirmMLSRevocation (now : Time) (conversationID : ConversationID)
      (revokedDeviceID : DeviceID) (accountID : AccountID) (deviceID : DeviceID)
  | createAttachmentEnvelope (now : Time) (attachment : AttachmentEnvelope)
  | deleteAttachment (id : AttachmentID) (accountID : AccountID)
  | saveMessageEnvelope (now : Time) (newID : MessageID) (withSyncEvent : Bool)
      (envelope : MessageEnvelope)
  | updateMessageEnvelope (now : Time) (messageID : MessageID) (accountID : AccountID)
      (ciphertext : Bytes) (cryptoProtocol : String) (cryptoMetadata : CryptoMetadata)
      (withSyncEvent : Bool)
  | deleteMessageEnvelope (now : Time) (messageID : MessageID) (accountID : AccountID)
      (markerCiphertext : Bytes) (cryptoProtocol : String) (cryptoMetadata : CryptoMetadata)
      (withSyncEvent : Bool)
  | pruneExpiredContent (now : Time)
  | pruneSyncEventsBatch (now olderThan : Time)
  | recordPlainEvent (now : Time) (eventType : EventType) (accountID : Option AccountID)
      (conversationID : Option ConversationID) (payload : Payload)
  | restart

/-- The clock reading of the call, if it takes one. -/
def Call.now : Call → Option Time
  | registerAccount now .. | enrollDevice now .. | revokeDevice now .. | revokeDeviceWithSyncEvent now ..
  | completeRecovery now .. | deleteAccountData now _ | createCommunity now ..
  | createChannelWithConversation now .. | manageCommunityMember now .. | createOrGetConversation now ..
  | addConversationMember now .. | manageConversationMember now .. | removeConversationMember now ..
  | updateConversationRetention now .. | setConversationPostingPolicy now ..
  | createMLSCommitBundle now .. | createMLSMessage now .. | confirmMLSRevocation now ..
  | createAttachmentEnvelope now _ | saveMessageEnvelope now .. | updateMessageEnvelope now ..
  | deleteMessageEnvelope now .. | pruneExpiredContent now | pruneSyncEventsBatch now _
  | recordPlainEvent now .. => some now
  | setAccountStatus .. | blockAccount .. | unblockAccount .. | createChannel .. | deleteAttachment ..
  | restart => none

/-- What a committed call answers. -/
inductive Answer
  | done
  | event (eventID : EventID)
  | events (eventIDs : List EventID)
  | removal (events : MembershipRemovalEvents)
  | conversation (id : ConversationID) (created : Bool)
  | bundle (result : MLSCommitBundleResult)
  | mlsMessage (result : CreateMLSMessageResult)
  | saved (message : SavedMessage)
  | mutated (envelope : MessageEnvelope) (eventID : EventID)
  | pruned (count : ℕ) (storageKeys : List String)
  | storageKeys (keys : List String)
  | attachment (attachment : AttachmentEnvelope)
  deriving DecidableEq, Repr

def answer {α : Type} (wrap : α → Answer) (result : Except StoreError (α × Store)) :
    Except StoreError (Answer × Store) :=
  result.map fun (value, s) => (wrap value, s)

def step (limits : Limits) (s : Store) : Call → Except StoreError (Answer × Store)
  | .registerAccount now accountID role deviceID =>
    answer (fun _ => .done) (s.registerAccount now accountID role deviceID)
  | .enrollDevice now accountID deviceID => answer (fun _ => .done) (s.enrollDevice now accountID deviceID)
  | .revokeDevice now accountID deviceID => answer .event (s.revokeDevice now accountID deviceID)
  | .revokeDeviceWithSyncEvent now accountID deviceID =>
    answer .event (s.revokeDeviceWithSyncEvent now accountID deviceID)
  | .completeRecovery now accountID newDeviceID =>
    answer .event (s.completeRecovery now accountID newDeviceID)
  | .deleteAccountData now accountID => answer .storageKeys (s.deleteAccountData now accountID)
  | .setAccountStatus actor target status => answer (fun _ => .done) (s.setAccountStatus actor target status)
  | .blockAccount blocker blocked => answer (fun _ => .done) (s.blockAccount blocker blocked)
  | .unblockAccount blocker blocked => answer (fun _ => .done) (s.unblockAccount blocker blocked)
  | .createCommunity now id createdBy => answer (fun _ => .done) (s.createCommunity now id createdBy)
  | .createChannel id communityID kind createdBy =>
    answer (fun _ => .done) (s.createChannel id communityID kind createdBy)
  | .createChannelWithConversation now channelID conversationID communityID kind createdBy =>
    answer (fun _ => .done)
      (Store.createChannelWithConversation limits s now channelID conversationID communityID kind createdBy)
  | .manageCommunityMember now communityID actor target role =>
    answer .events (Store.manageCommunityMember limits s now communityID actor target role)
  | .createOrGetConversation now id input =>
    answer (fun (id, created) => .conversation id created)
      (Store.createOrGetConversation limits s now id input)
  | .addConversationMember now conversationID accountID role =>
    answer (fun _ => .done) (Store.addConversationMember limits s now conversationID accountID role)
  | .manageConversationMember now conversationID actor target role =>
    answer .event (Store.manageConversationMember limits s now conversationID actor target role)
  | .removeConversationMember now conversationID actor target =>
    answer .removal (s.removeConversationMember now conversationID actor target)
  | .updateConversationRetention now conversationID updatedBy retentionSeconds =>
    answer .event (s.updateConversationRetention now conversationID updatedBy retentionSeconds)
  | .setConversationPostingPolicy now conversationID updatedBy policy =>
    answer .event (s.setConversationPostingPolicy now conversationID updatedBy policy)
  | .createMLSCommitBundle now newID input =>
    answer .bundle (Store.createMLSCommitBundle limits s now newID input)
  | .createMLSMessage now id input => answer .mlsMessage (s.createMLSMessage now id input)
  | .confirmMLSRevocation now conversationID revokedDeviceID accountID deviceID =>
    answer .event (s.confirmMLSRevocation now conversationID revokedDeviceID accountID deviceID)
  | .createAttachmentEnvelope now attachment =>
    answer (fun _ => .done) (s.createAttachmentEnvelope now attachment)
  | .deleteAttachment id accountID => answer .attachment (s.deleteAttachment id accountID)
  | .saveMessageEnvelope now newID withSyncEvent envelope =>
    answer .saved (s.saveMessageEnvelope now newID withSyncEvent envelope)
  | .updateMessageEnvelope now messageID accountID ciphertext cryptoProtocol cryptoMetadata withSyncEvent =>
    answer (fun (envelope, eventID) => .mutated envelope eventID)
      (s.updateMessageEnvelope now messageID accountID ciphertext cryptoProtocol cryptoMetadata
        (if withSyncEvent then some .messageEnvelopeEdited else none))
  | .deleteMessageEnvelope now messageID accountID marker cryptoProtocol cryptoMetadata withSyncEvent =>
    answer (fun (envelope, eventID) => .mutated envelope eventID)
      (s.deleteMessageEnvelope now messageID accountID marker cryptoProtocol cryptoMetadata
        (if withSyncEvent then some .messageEnvelopeDeleted else none))
  | .pruneExpiredContent now =>
    answer (fun (count, keys) => .pruned count keys) (.ok (s.pruneExpiredContent now))
  | .pruneSyncEventsBatch now olderThan =>
    answer (fun count => .pruned count []) (s.pruneSyncEventsBatch now olderThan)
  | .recordPlainEvent now eventType accountID conversationID payload =>
    answer .event (do
      require (eventType.isPlain ∧ payload.isPlain) StoreError.invalidInput
      pure (s.insertSyncEvent eventType accountID conversationID payload now))
  -- The redaction cursor lives in memory.
  | .restart => .ok (.done, { s with redactCursor := 0 })

abbrev Entry := Served Store Call StoreError Answer

/-- Runs of the server from the freshly migrated database. -/
abbrev ServerRun (limits : Limits) :=
  Run (step limits) unguarded Store.init

end Veritra.Storage
