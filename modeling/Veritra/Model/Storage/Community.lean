import Veritra.Model.Storage.CommitBundle
import Veritra.Model.Storage.Identity

/-! # Communities, conversations and members

Who belongs to a conversation, from `community_store.go`, with the admission limits of
`admission_store.go` and the two conversation settings that other operations read. None of these
operations touches the MLS tables: a member who leaves stays on the roster until a commit removes
the member's devices.
-/

namespace Veritra.Storage

open Relational Machine

structure CreateConversationInput where
  kind : ConversationKind
  title : Option String
  communityID : Option CommunityID
  channelID : Option ChannelID
  createdBy : AccountID
  retentionSeconds : Option ℕ
  memberAccountIDs : List AccountID
  deriving DecidableEq, Repr

structure MembershipRemovalEvents where
  remainingMembersEventID : EventID
  removedMemberEventID : EventID
  deriving DecidableEq, Repr

/-- The listed accounts, trimmed, without the creator and without repetitions. -/
def normalizeMembers (createdBy : AccountID) : List AccountID → List AccountID
  | [] => []
  | accountID :: rest =>
    let accountID := trimSpace accountID
    let rest := normalizeMembers createdBy rest
    if accountID = createdBy then rest else accountID :: rest.filter (· ≠ accountID)

namespace CreateConversationInput

/-- What each kind of conversation may name; `members` is the normalized member list. -/
def shapeFits (input : CreateConversationInput) (members : List AccountID) : Bool :=
  match input.kind with
  | .dm => members.length = 1 && input.title.isNone && input.communityID.isNone && input.channelID.isNone
  | .group => input.communityID.isNone && input.channelID.isNone
  | .communityChannel => input.communityID.isSome && input.channelID.isSome

/-- The checks made before the transaction begins. -/
def valid (input : CreateConversationInput) (members : List AccountID) : Prop :=
  (input.memberAccountIDs.length ≤ 100 ∧ validID "acct" input.createdBy) ∧
  (∀ accountID ∈ input.memberAccountIDs, validID "acct" (trimSpace accountID)) ∧
  (∀ title ∈ input.title, ¬ isBlank title ∧ byteLength (trimSpace title) ≤ 64) ∧
  input.shapeFits members
  deriving Decidable

end CreateConversationInput

/-- The membership's `conversation_id` is set. -/
def Scope.isConversation : Scope → Bool
  | conversation _ => true
  | community _ => false

namespace Store

def membership? (s : Store) (accountID : AccountID) (scope : Scope) : Option Membership :=
  s.memberships.find? (accountID, scope)

def blockedEitherWay (s : Store) (left right : AccountID) : Prop :=
  ∃ b ∈ s.blocks, (b.blockerAccountID = left ∧ b.blockedAccountID = right) ∨
    (b.blockerAccountID = right ∧ b.blockedAccountID = left)
  deriving Decidable

def accountExists (s : Store) (accountID : AccountID) : Prop :=
  ∃ a ∈ s.accounts, a.id = accountID ∧ a.deletedAt = none
  deriving Decidable

def memberCount (s : Store) (scope : Scope) : ℕ := (s.memberships.rows.filter (·.scope = scope)).length

def conversationCount (s : Store) (accountID : AccountID) : ℕ :=
  (s.memberships.rows.filter fun m => m.accountID = accountID && m.scope.isConversation).length

/-- The conversation limit; the refusal depends on who is being added. -/
def checkConversations (limits : Limits) (s : Store) (accountID : AccountID) (adding : ℕ)
    (refusal : StoreError) : Except StoreError Unit :=
  require (s.conversationCount accountID + adding ≤ limits.conversationsPerAccount) refusal

/-- The limit for the acting account. -/
def checkOwnConversations (limits : Limits) (s : Store) (accountID : AccountID) (adding : ℕ) :
    Except StoreError Unit :=
  checkConversations limits s accountID adding .conversationLimit

/-- The limit for an account someone else adds, refused as a block is. -/
def checkOtherConversations (limits : Limits) (s : Store) (accountID : AccountID) (adding : ℕ) :
    Except StoreError Unit :=
  checkConversations limits s accountID adding .forbidden

def checkMembers (limits : Limits) (current adding : ℕ) : Except StoreError Unit :=
  require (current + adding ≤ limits.conversationMembers) StoreError.conversationMemberLimit

/-- The member limit of the conversation and the conversation limit of the account joining it. -/
def checkNewConversationMember (limits : Limits) (s : Store) (conversationID : ConversationID)
    (accountID : AccountID) : Except StoreError Unit := do
  checkMembers limits (s.memberCount (.conversation conversationID)) 1
  checkOtherConversations limits s accountID 1

def communityConversations (s : Store) (communityID : CommunityID) : List Conversation :=
  s.conversations.rows.filter fun c => c.communityID = some communityID ∧ c.kind = .communityChannel

def largestChannel (s : Store) (communityID : CommunityID) : ℕ :=
  (((s.communityConversations communityID).map fun c => s.memberCount (.conversation c.id)).max?).getD 0

/-- A new community member also joins every channel. -/
def checkNewCommunityMember (limits : Limits) (s : Store) (communityID : CommunityID)
    (accountID : AccountID) : Except StoreError Unit := do
  checkMembers limits (s.memberCount (.community communityID)) 1
  checkMembers limits (s.largestChannel communityID) 1
  checkOtherConversations limits s accountID (s.communityConversations communityID).length

/-- Insert a membership row, refused when the account already has one. -/
def insertMembership (s : Store) (row : Membership) : Except StoreError Store :=
  match s.memberships.insert? row with
  | some memberships => .ok { s with memberships }
  | none => .error .uniqueConstraint

/-- Insert a membership row, or change the role of the one that is there. -/
def setMembership (s : Store) (accountID : AccountID) (scope : Scope) (role : Role) (now : Time) : Store :=
  { s with memberships := s.memberships.upsert ⟨accountID, scope, role, now⟩ fun m => { m with role } }

def createCommunity (s : Store) (now : Time) (id : CommunityID) (createdBy : AccountID) :
    Except StoreError (Unit × Store) :=
  match s.communities.insert? ⟨id, createdBy⟩ with
  | none => .error .uniqueConstraint
  | some communities => do
    let s ← { s with communities }.insertMembership ⟨createdBy, .community id, .owner, now⟩
    pure ((), s)

def createChannel (s : Store) (id : ChannelID) (communityID : CommunityID) (kind : ChannelKind)
    (createdBy : AccountID) : Except StoreError (Unit × Store) := do
  let some actor := s.membership? createdBy (.community communityID) | .error .notMember
  require actor.role.canManageMembers StoreError.forbidden
  match s.channels.insert? ⟨id, communityID, kind⟩ with
  | none => .error .uniqueConstraint
  | some channels => pure ((), { s with channels })

/-- Insert a conversation; a channel carries one conversation at most. -/
def insertConversation (s : Store) (row : Conversation) : Except StoreError Store := do
  require (∀ c ∈ s.conversations, c.channelID = none ∨ c.channelID ≠ row.channelID)
    StoreError.uniqueConstraint
  match s.conversations.insert? row with
  | some conversations => pure { s with conversations }
  | none => .error .uniqueConstraint

/-- Every listed member joins with the given role and is told so. -/
def joinAll (s : Store) (conversationID : ConversationID) (now : Time) :
    List (AccountID × Role) → Except StoreError Store
  | [] => .ok s
  | (accountID, role) :: rest => do
    let s ← s.insertMembership ⟨accountID, .conversation conversationID, role, now⟩
    let (_, s) := s.insertSyncEvent .membershipUpdated (some accountID) (some conversationID) .other now
    s.joinAll conversationID now rest

def createChannelWithConversation (limits : Limits) (s : Store) (now : Time) (channelID : ChannelID)
    (conversationID : ConversationID) (communityID : CommunityID) (kind : ChannelKind)
    (createdBy : AccountID) : Except StoreError (Unit × Store) := do
  let some actor := s.membership? createdBy (.community communityID) | .error .notMember
  require actor.role.canManageMembers StoreError.forbidden
  checkMembers limits 0 (s.memberCount (.community communityID))
  checkOwnConversations limits s createdBy 1
  let members := s.memberships.rows.filter (·.scope = .community communityID)
  members.forM fun m =>
    if m.accountID = createdBy then .ok () else checkOtherConversations limits s m.accountID 1
  match s.channels.insert? ⟨channelID, communityID, kind⟩ with
  | none => .error .uniqueConstraint
  | some channels => do
    let s ← { s with channels }.insertConversation
      ⟨conversationID, .communityChannel, some communityID, some channelID, createdBy, none, .everyone, now⟩
    let s ← s.joinAll conversationID now (members.map fun m => (m.accountID, m.role))
    pure ((), s)

/-- Set the target's role in each listed conversation and tell the target so. -/
def setRoleInEach (s : Store) (targetAccountID : AccountID) (role : Role) (now : Time) :
    List ConversationID → List EventID × Store
  | [] => ([], s)
  | conversationID :: rest =>
    let s := s.setMembership targetAccountID (.conversation conversationID) role now
    let (eventID, s) := s.insertSyncEvent .membershipUpdated (some targetAccountID)
      (some conversationID) .other now
    let (eventIDs, s) := s.setRoleInEach targetAccountID role now rest
    (eventID :: eventIDs, s)

/-- Add a member to a community and all its channels, or change the member's role there. -/
def manageCommunityMember (limits : Limits) (s : Store) (now : Time) (communityID : CommunityID)
    (actorAccountID targetAccountID : AccountID) (role : Role) :
    Except StoreError (List EventID × Store) := do
  let some actor := s.membership? actorAccountID (.community communityID) | .error .notMember
  require (actor.role.canManageMembers ∧ role.rank ≤ actor.role.rank) StoreError.forbidden
  require (s.accountExists targetAccountID) StoreError.notFound
  require (¬ s.blockedEitherWay actorAccountID targetAccountID) StoreError.forbidden
  match s.membership? targetAccountID (.community communityID) with
  | some current => require (current.role.rank < actor.role.rank) StoreError.forbidden
  | none => checkNewCommunityMember limits s communityID targetAccountID
  let s := s.setMembership targetAccountID (.community communityID) role now
  pure (s.setRoleInEach targetAccountID role now ((s.communityConversations communityID).map (·.id)))

/-- `dmAccountPair`. -/
def dmAccountPair (first second : AccountID) : AccountID × AccountID :=
  if first < second then (first, second) else (second, first)

/-- The conversation of a direct pair, if the pair has one already. -/
def existingDM (s : Store) (input : CreateConversationInput) (members : List AccountID) :
    Option ConversationID :=
  match input.kind, members with
  | .dm, other :: _ => (s.dmPairs.find? (dmAccountPair input.createdBy other)).map (·.conversationID)
  | _, _ => none

/-- A channel conversation points at a channel of a community the creator belongs to. -/
def checkChannel (s : Store) (input : CreateConversationInput) : Except StoreError Unit :=
  match input.kind, input.communityID, input.channelID with
  | .communityChannel, some communityID, some channelID => do
    require ((s.membership? input.createdBy (.community communityID)).isSome) StoreError.forbidden
    let some channel := s.channels.find? channelID | .error .notFound
    require (channel.communityID = communityID) StoreError.forbidden
  | _, _, _ => .ok ()

/-- An initial member is not blocked, exists, and belongs to the channel's community. -/
def checkInitialMember (s : Store) (input : CreateConversationInput) (accountID : AccountID) :
    Except StoreError Unit := do
  require (¬ s.blockedEitherWay input.createdBy accountID) StoreError.forbidden
  require (s.accountExists accountID) StoreError.notFound
  match input.kind, input.communityID with
  | .communityChannel, some communityID =>
    require ((s.membership? accountID (.community communityID)).isSome) StoreError.forbidden
  | _, _ => .ok ()

/-- Create a conversation with its initial members, or return the direct conversation that the
pair already has. The answer says whether the conversation was made now. -/
def createOrGetConversation (limits : Limits) (s : Store) (now : Time) (id : ConversationID)
    (input : CreateConversationInput) : Except StoreError ((ConversationID × Bool) × Store) := do
  let members := normalizeMembers input.createdBy input.memberAccountIDs
  require (input.valid members) StoreError.invalidInput
  s.checkChannel input
  members.forM (s.checkInitialMember input)
  match s.existingDM input members with
  | some existing => pure ((existing, false), s)
  | none =>
    checkMembers limits 0 (1 + members.length)
    checkOwnConversations limits s input.createdBy 1
    members.forM fun accountID => checkOtherConversations limits s accountID 1
    let s ← s.insertConversation
      ⟨id, input.kind, input.communityID, input.channelID, input.createdBy, input.retentionSeconds, .everyone, now⟩
    let s ← s.insertMembership ⟨input.createdBy, .conversation id, .owner, now⟩
    let s ← s.joinAll id now (members.map fun accountID => (accountID, .member))
    match input.kind, members with
    | .dm, other :: _ =>
      let pair := dmAccountPair input.createdBy other
      match s.dmPairs.insert? ⟨pair.1, pair.2, id⟩ with
      | some dmPairs => pure ((id, true), { s with dmPairs })
      | none => .error .idempotencyConflict
    | _, _ => pure ((id, true), s)

/-- Add a member without changing the role of one who is there already. -/
def addConversationMember (limits : Limits) (s : Store) (now : Time) (conversationID : ConversationID)
    (accountID : AccountID) (role : Role) : Except StoreError (Unit × Store) := do
  let some conversation := s.conversations.find? conversationID | .error .notFound
  require (conversation.kind ≠ .dm) StoreError.forbidden
  if s.isConversationMember conversationID accountID then pure ()
  else checkNewConversationMember limits s conversationID accountID
  let memberships := s.memberships.insertOrIgnore ⟨accountID, .conversation conversationID, role, now⟩
  pure ((), { s with memberships })

/-- A member who joins a channel belongs to its community. -/
def checkJoinsChannel (s : Store) (conversation : Conversation) (accountID : AccountID) :
    Except StoreError Unit :=
  match conversation.kind, conversation.communityID with
  | .communityChannel, some communityID =>
    require ((s.membership? accountID (.community communityID)).isSome) StoreError.forbidden
  | .communityChannel, none => .error .forbidden
  | _, _ => .ok ()

/-- Add a member or change a member's role, by someone who may. -/
def manageConversationMember (limits : Limits) (s : Store) (now : Time)
    (conversationID : ConversationID) (actorAccountID targetAccountID : AccountID) (role : Role) :
    Except StoreError (EventID × Store) := do
  let some actor := s.membership? actorAccountID (.conversation conversationID) | .error .notMember
  let some conversation := s.conversations.find? conversationID | .error .notMember
  require (conversation.kind ≠ .dm) StoreError.forbidden
  require (actor.role.canManageMembers ∧ role.rank ≤ actor.role.rank) StoreError.forbidden
  require (s.accountExists targetAccountID) StoreError.notFound
  require (¬ s.blockedEitherWay actorAccountID targetAccountID) StoreError.forbidden
  match s.membership? targetAccountID (.conversation conversationID) with
  | some current => require (current.role.rank < actor.role.rank) StoreError.forbidden
  | none =>
    s.checkJoinsChannel conversation targetAccountID
    checkNewConversationMember limits s conversationID targetAccountID
  let s := s.setMembership targetAccountID (.conversation conversationID) role now
  pure (s.insertSyncEvent .membershipUpdated none (some conversationID) (.ofAccount targetAccountID) now)

/-- Take a member out of a group, or leave it. The confirmations that the member's devices owe are
not released, and the roster is left to later commits. -/
def removeConversationMember (s : Store) (now : Time) (conversationID : ConversationID)
    (actorAccountID targetAccountID : AccountID) : Except StoreError (MembershipRemovalEvents × Store) := do
  let some actor := s.membership? actorAccountID (.conversation conversationID) | .error .notMember
  let some conversation := s.conversations.find? conversationID | .error .notMember
  require (conversation.kind = .group) StoreError.forbidden
  let some target := s.membership? targetAccountID (.conversation conversationID) | .error .notFound
  if actorAccountID = targetAccountID then
    require (target.role = .owner → 1 < (s.memberships.rows.filter fun m =>
      m.scope = .conversation conversationID ∧ m.role = .owner).length) StoreError.lastOwner
  else
    require (actor.role.canManageMembers ∧ target.role.rank < actor.role.rank) StoreError.forbidden
  let eventType : EventType :=
    if actorAccountID = targetAccountID then .membershipLeft else .membershipRemoved
  let memberships := s.memberships.delete fun m =>
    m.scope = .conversation conversationID ∧ m.accountID = targetAccountID
  let s := { s with memberships }
  let (remainingEventID, s) := s.insertSyncEvent eventType none (some conversationID)
    (.ofAccount targetAccountID) now
  let (removedEventID, s) := s.insertSyncEvent eventType (some targetAccountID) none
    (.ofAccount targetAccountID) now
  pure (⟨remainingEventID, removedEventID⟩, s)

/-- Set how long messages sent from now on are kept. Messages already sent keep their expiry. -/
def updateConversationRetention (s : Store) (now : Time) (conversationID : ConversationID)
    (updatedBy : AccountID) (retentionSeconds : Option ℕ) : Except StoreError (EventID × Store) := do
  let some mem := s.membership? updatedBy (.conversation conversationID) | .error .notMember
  require mem.role.canManageMembers StoreError.forbidden
  let conversations := s.conversations.update (·.id = conversationID) fun c => { c with retentionSeconds }
  pure ({ s with conversations }.insertSyncEvent .retentionUpdated none (some conversationID) .other now)

/-- Limit posting in a group to its owner and admins, or lift the limit. -/
def setConversationPostingPolicy (s : Store) (now : Time) (conversationID : ConversationID)
    (updatedBy : AccountID) (policy : PostingPolicy) : Except StoreError (EventID × Store) := do
  let some mem := s.membership? updatedBy (.conversation conversationID) | .error .notMember
  require mem.role.canManageInvites StoreError.forbidden
  let some conversation := s.conversations.find? conversationID | .error .notFound
  require (conversation.kind = .group) StoreError.invalidInput
  let conversations := s.conversations.update (·.id = conversationID)
    fun c => { c with postingPolicy := policy }
  pure ({ s with conversations }.insertSyncEvent .conversationPostingPolicyUpdated none (some conversationID) .other now)

end Store
end Veritra.Storage
