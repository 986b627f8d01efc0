import Veritra.Proofs.Storage.Directory

/-! # What one call does to the directory

Every committed call moves the directory in one of the ways below. A move that founds a community or
a conversation only adds roles, with the roles listed; a move that manages a member sets the
member's role in the scopes listed; a removal and the deletion of an account take roles away. Each
move carries the checks that its operation made, on the directory before the call.
-/

namespace Veritra.Storage

open Relational Machine

variable {target accountID : AccountID} {role : Role} {conversationID : ConversationID} {u : Unit}
  {communityID : CommunityID} {c : Conversation} {scopes : Scope → Prop} {eventID : EventID}

namespace Directory

variable {d d' : Directory}

/-- The communities, the channels and the conversations are the same. -/
structure SamePlaces (d d' : Directory) : Prop where
  communities : d'.communities = d.communities
  channels : d'.channels = d.channels
  conversations : d'.conversations = d.conversations

theorem SamePlaces.trans {d'' : Directory} (first : SamePlaces d d') (second : SamePlaces d' d'') :
    SamePlaces d d'' where
  communities := second.communities.trans first.communities
  channels := second.channels.trans first.channels
  conversations := second.conversations.trans first.conversations

/-- The roles of `d'` are those of `d` and the listed ones. -/
def Adds (d d' : Directory) (new : AccountID → Scope → Role → Prop) : Prop :=
  ∀ accountID scope role, d'.roleOf accountID scope = some role ↔
    d.roleOf accountID scope = some role ∨ new accountID scope role

/-- The account's role is now `role` in the listed scopes, and nothing else changed. -/
def Grants (d d' : Directory) (target : AccountID) (scopes : Scope → Prop) (role : Option Role) : Prop :=
  (∀ scope, scopes scope → d'.roleOf target scope = role) ∧
    ∀ accountID scope, ¬ (accountID = target ∧ scopes scope) → d'.roleOf accountID scope = d.roleOf accountID scope

theorem Grants.then {middle : Directory} {first rest : Scope → Prop} {role : Option Role}
    (granted : Grants d middle target first role) (grants : Grants middle d' target rest role) :
    Grants d d' target (fun scope => first scope ∨ rest scope) role := by
  constructor
  · intro scope here
    by_cases later : rest scope
    · exact grants.1 scope later
    · rw [grants.2 target scope fun both => later both.2]
      exact granted.1 scope (here.resolve_right later)
  · intro accountID scope elsewhere
    rw [grants.2 accountID scope fun both => elsewhere ⟨both.1, .inr both.2⟩]
    exact granted.2 accountID scope fun both => elsewhere ⟨both.1, .inl both.2⟩

section Members

variable {scope : Scope}

theorem Adds.mem_members {new : AccountID → Scope → Role → Prop} (adds : Adds d d' new) :
    accountID ∈ d'.members scope ↔ accountID ∈ d.members scope ∨ ∃ role, new accountID scope role := by
  rw [Directory.mem_members, Directory.mem_members, Option.isSome_iff_exists, Option.isSome_iff_exists]
  exact (exists_congr (adds accountID scope)).trans exists_or

theorem Grants.mem_members_set (grants : Grants d d' target scopes (some role)) :
    accountID ∈ d'.members scope ↔ accountID ∈ d.members scope ∨ accountID = target ∧ scopes scope := by
  rw [Directory.mem_members, Directory.mem_members]
  by_cases here : accountID = target ∧ scopes scope
  · rw [here.1, grants.1 scope here.2]
    simp [here.2]
  · rw [grants.2 accountID scope here]
    exact (or_iff_left here).symm

theorem Grants.mem_members_ended (grants : Grants d d' target scopes none) :
    accountID ∈ d'.members scope ↔ accountID ∈ d.members scope ∧ ¬ (accountID = target ∧ scopes scope) := by
  rw [Directory.mem_members, Directory.mem_members]
  by_cases here : accountID = target ∧ scopes scope
  · rw [here.1, grants.1 scope here.2]
    simp [here.2]
  · rw [grants.2 accountID scope here]
    exact (and_iff_left here).symm

end Members

end Directory

open Directory

namespace Store

variable {scope : Scope} {adding : ℕ} {limits : Limits} {s s' : Store} {now : Time} {updatedBy : AccountID}

theorem insertMembership_ok {row : Membership} (ok : s.insertMembership row = .ok s') :
    Calm s s' ∧ SamePlaces s.directory s'.directory ∧ Adds s.directory s'.directory fun accountID scope role =>
      accountID = row.accountID ∧ scope = row.scope ∧ role = row.role := by
  unfold insertMembership at ok
  split at ok
  · next memberships inserted =>
    cases ok
    refine ⟨.memberships s memberships ?_, ⟨rfl, rfl, rfl⟩, fun accountID scope role => ?_⟩
    · intro m mem
      exact ⟨m, (Table.mem_of_insert? inserted m).mpr (.inl mem), rfl, rfl⟩
    rw [roleOf_eq_some, roleOf_eq_some]
    constructor
    · rintro ⟨m, mem, rfl, rfl, rfl⟩
      rcases (Table.mem_of_insert? inserted m).mp mem with old | rfl
      · exact .inl ⟨m, old, rfl, rfl, rfl⟩
      · exact .inr ⟨rfl, rfl, rfl⟩
    · rintro (⟨m, mem, here⟩ | ⟨rfl, rfl, rfl⟩)
      · exact ⟨m, (Table.mem_of_insert? inserted m).mpr (.inl mem), here⟩
      · exact ⟨row, (Table.mem_of_insert? inserted row).mpr (.inr rfl), rfl, rfl, rfl⟩
  · cases ok

theorem setMembership_calm (s : Store) (accountID : AccountID) (scope : Scope) (role : Role)
    (now : Time) : Calm s (s.setMembership accountID scope role now) := by
  refine .memberships s _ ?_
  intro m mem
  by_cases same : m.key = (accountID, scope)
  · exact ⟨_, Table.mem_upsert.mpr (.inr (.inl ⟨m, mem, same, rfl⟩)), rfl, rfl⟩
  · exact ⟨m, Table.mem_upsert.mpr (.inl ⟨mem, same⟩), rfl, rfl⟩

theorem setMembership_grants (s : Store) (target : AccountID) (scope : Scope) (role : Role) (now : Time) :
    Grants s.directory (s.setMembership target scope role now).directory target (· = scope) (some role) := by
  have looked (accountID : AccountID) (other : Scope) :
      (s.setMembership target scope role now).directory.roleOf accountID other =
        if (target, scope) = (accountID, other) then some role else s.directory.roleOf accountID other := by
    have found := @Table.find?_upsert _ _ _ _ s.memberships ⟨target, scope, role, now⟩
      (fun m => { m with role }) (fun _ => rfl) (accountID, other)
    refine (congrArg (Option.map (·.role)) found).trans ?_
    have set (held : Option Membership) :
        ((held.map fun m : Membership => { m with role }).getD ⟨target, scope, role, now⟩).role = role := by
      cases held <;> rfl
    unfold Membership.key
    split
    · exact congrArg some (set _)
    · rfl
  constructor
  · rintro _ rfl
    rw [looked, if_pos rfl]
  · intro accountID other elsewhere
    rw [looked, if_neg]
    intro same
    exact elsewhere ⟨(congrArg Prod.fst same).symm, (congrArg Prod.snd same).symm⟩

theorem joinAll_ok {members : List (AccountID × Role)}
    (ok : s.joinAll conversationID now members = .ok s') :
    Calm s s' ∧ SamePlaces s.directory s'.directory ∧ Adds s.directory s'.directory fun accountID scope role =>
      scope = .conversation conversationID ∧ (accountID, role) ∈ members := by
  induction members generalizing s with
  | nil =>
    cases ok
    exact ⟨.refl _, ⟨rfl, rfl, rfl⟩, fun _ _ _ => by simp⟩
  | cons mem rest ih =>
    obtain ⟨joined, inserted, ok⟩ := bind_eq_ok.mp ok
    obtain ⟨calm, places, adds⟩ := insertMembership_ok inserted
    obtain ⟨restCalm, restPlaces, restAdds⟩ := ih ok
    refine ⟨(calm.trans (.event joined ⟨rfl, rfl⟩)).trans restCalm, places.trans restPlaces, fun accountID scope role => ?_⟩
    refine (restAdds accountID scope role).trans ?_
    change joined.directory.roleOf accountID scope = some role ∨ _ ↔ _
    rw [adds]
    simp only [List.mem_cons, Prod.ext_iff]
    tauto

theorem setRoleInEach_grants (s : Store) (target : AccountID) (role : Role) (now : Time)
    (conversations : List ConversationID) :
    Calm s (s.setRoleInEach target role now conversations).2 ∧
      SamePlaces s.directory (s.setRoleInEach target role now conversations).2.directory ∧
      Grants s.directory (s.setRoleInEach target role now conversations).2.directory target
        (fun scope => ∃ c ∈ conversations, scope = .conversation c) (some role) := by
  induction conversations generalizing s with
  | nil =>
    exact ⟨.refl s, ⟨rfl, rfl, rfl⟩, fun _ ⟨_, listed, _⟩ => absurd listed List.not_mem_nil, fun _ _ _ => rfl⟩
  | cons conversationID rest ih =>
    have first := s.setMembership_grants target (.conversation conversationID) role now
    have joined := s.setMembership_calm target (.conversation conversationID) role now
    obtain ⟨calm, places, grants⟩ := ih ((s.setMembership target (.conversation conversationID) role
      now).insertSyncEvent .membershipUpdated (some target) (some conversationID) .other now).2
    refine ⟨(joined.trans (.event _ ⟨rfl, rfl⟩)).trans calm,
      ⟨places.communities, places.channels, places.conversations⟩, ?_⟩
    simp only [List.exists_mem_cons_iff]
    exact first.then grants

theorem membership?_isSome :
    (s.membership? accountID scope).isSome ↔ (s.directory.roleOf accountID scope).isSome := by
  rw [← membership?_role, Option.isSome_map]

theorem roleOf_of_found {m : Membership} (found : s.membership? accountID scope = some m) :
    s.directory.roleOf accountID scope = some m.role := by
  rw [← membership?_role, found, Option.map_some]

theorem roleOf_of_missing (missing : s.membership? accountID scope = none) :
    s.directory.roleOf accountID scope = none := by
  rw [← membership?_role, missing, Option.map_none]

theorem checkMembers_ok {current : ℕ} (checked : checkMembers limits current adding = .ok u) :
    current + adding ≤ limits.conversationMembers := require_eq_ok.mp checked

theorem checkConversations_ok {refusal : StoreError}
    (checked : checkConversations limits s accountID adding refusal = .ok u) :
    (s.directory.joined accountID).card + adding ≤ limits.conversationsPerAccount := by
  rw [← conversationCount_eq]
  exact require_eq_ok.mp checked

theorem le_largestChannel (channel : c ∈ s.communityConversations communityID) :
    (s.directory.members (.conversation c.id)).card ≤ s.largestChannel communityID := by
  rw [← memberCount_eq]
  have counted := List.mem_map_of_mem (f := fun c : Conversation => s.memberCount (.conversation c.id)) channel
  unfold largestChannel
  cases largest : ((s.communityConversations communityID).map fun c =>
      s.memberCount (.conversation c.id)).max? with
  | none =>
    rw [List.max?_eq_none_iff.mp largest] at counted
    cases counted
  | some most => exact (List.max?_eq_some_iff.mp largest).2 _ counted

theorem checkNewCommunityMember_ok
    (checked : checkNewCommunityMember limits s communityID accountID = .ok u) :
    (s.directory.members (.community communityID)).card + 1 ≤ limits.conversationMembers ∧
      (∀ c ∈ s.directory.channelsOf communityID,
        (s.directory.members (.conversation c.id)).card + 1 ≤ limits.conversationMembers) ∧
      (s.directory.joined accountID).card + (s.directory.channelsOf communityID).length ≤
        limits.conversationsPerAccount := by
  obtain ⟨_, community, checked⟩ := bind_eq_ok.mp checked
  obtain ⟨_, largest, checked⟩ := bind_eq_ok.mp checked
  rw [communityConversations_outlines, List.length_map]
  refine ⟨memberCount_eq s _ ▸ checkMembers_ok community, ?_, checkConversations_ok checked⟩
  intro c listed
  obtain ⟨channel, stored, rfl⟩ := List.mem_map.mp listed
  have fits := le_largestChannel stored
  exact Nat.le_trans (Nat.succ_le_succ fits) (checkMembers_ok largest)

theorem checkNewConversationMember_ok
    (checked : checkNewConversationMember limits s conversationID accountID = .ok u) :
    (s.directory.members (.conversation conversationID)).card + 1 ≤ limits.conversationMembers ∧
      (s.directory.joined accountID).card + 1 ≤ limits.conversationsPerAccount := by
  obtain ⟨_, conversation, checked⟩ := bind_eq_ok.mp checked
  exact ⟨memberCount_eq s _ ▸ checkMembers_ok conversation, checkConversations_ok checked⟩

/-- A check made for every listed account. -/
theorem forM_ok {α : Type} {check : α → Except StoreError Unit} {items : List α}
    (checked : items.forM check = .ok u) : ∀ item ∈ items, check item = .ok () := by
  induction items with
  | nil => exact fun _ listed => absurd listed List.not_mem_nil
  | cons item rest ih =>
    obtain ⟨_, first, checked⟩ := bind_eq_ok.mp checked
    intro other listed
    rcases List.mem_cons.mp listed with rfl | later
    · exact first
    · exact ih checked other later

theorem insertConversation_ok {row : Conversation} (ok : s.insertConversation row = .ok s') :
    Calm s s' ∧ (∀ c ∈ s.directory.conversations, c.id ≠ row.id) ∧
      (∀ c ∈ s.directory.conversations, c.channelID = none ∨ c.channelID ≠ row.channelID) ∧
      s'.directory = { s.directory with
        conversations := s.directory.conversations ++ [row.outline] } := by
  obtain ⟨unused, ok⟩ := require_ok.mp ok
  split at ok
  · next conversations inserted =>
    cases ok
    refine ⟨⟨.of_eq rfl rfl rfl rfl rfl rfl, ⟨rfl, rfl, rfl⟩⟩, ?_, ?_, ?_⟩
    · intro c listed
      obtain ⟨stored, mem, rfl⟩ := List.mem_map.mp listed
      exact Table.free_of_insert? inserted stored mem
    · intro c listed
      obtain ⟨stored, mem, rfl⟩ := List.mem_map.mp listed
      exact unused stored mem
    · unfold directory
      rw [Table.rows_of_insert? inserted, List.map_append, List.map_singleton]
  · cases ok

theorem stored_of_find? (found : s.conversations.find? conversationID = some c) :
    c.outline ∈ s.directory.conversations ∧ c.outline.id = conversationID := by
  obtain ⟨stored, same⟩ := Table.find?_eq_some.mp found
  exact ⟨List.mem_map_of_mem stored, same⟩

/-- A change of settings is not seen in the directory. -/
theorem directory_update (s : Store) (p : Conversation → Prop) [DecidablePred p]
    (change : Conversation → Conversation) (keeps : ∀ c, (change c).id = c.id)
    (same : ∀ c, (change c).outline = c.outline) :
    { s with conversations := s.conversations.update p change keeps }.directory = s.directory := by
  have outlines : (s.conversations.update p change keeps).rows.map Conversation.outline =
      s.conversations.rows.map Conversation.outline := by
    unfold Table.update
    rw [List.map_map]
    refine List.map_congr_left fun c _ => ?_
    simp only [Function.comp]
    split
    · exact same c
    · rfl
  unfold directory
  rw [outlines]

theorem updateConversationRetention_ok {retentionSeconds : Option ℕ}
    (ok : s.updateConversationRetention now conversationID updatedBy retentionSeconds =
      .ok (eventID, s')) : Calm s s' ∧ s'.directory = s.directory := by
  unfold updateConversationRetention at ok
  split at ok
  · have ok := of_require ok
    cases ok
    refine ⟨Calm.trans ?_ (.event _ ⟨rfl, rfl⟩), ?_⟩
    · exact ⟨.of_eq rfl rfl rfl rfl rfl rfl, ⟨rfl, rfl, rfl⟩⟩
    · exact s.directory_update (·.id = conversationID) (fun c => { c with retentionSeconds }) (fun _ => rfl) fun _ => rfl
  · cases ok

theorem setConversationPostingPolicy_ok {policy : PostingPolicy}
    (ok : s.setConversationPostingPolicy now conversationID updatedBy policy = .ok (eventID, s')) :
    Calm s s' ∧ s'.directory = s.directory := by
  unfold setConversationPostingPolicy at ok
  split at ok
  · have ok := of_require ok
    split at ok
    · have ok := of_require ok
      cases ok
      refine ⟨Calm.trans ?_ (.event _ ⟨rfl, rfl⟩), ?_⟩
      · exact ⟨.of_eq rfl rfl rfl rfl rfl rfl, ⟨rfl, rfl, rfl⟩⟩
      · exact s.directory_update (·.id = conversationID) (fun c => { c with postingPolicy := policy })
          (fun _ => rfl) fun _ => rfl
    · cases ok
  · cases ok

end Store

/-- Who acts on whose membership. -/
def Call.actsOn : Call → Option (AccountID × AccountID)
  | manageCommunityMember _ _ actor target _ | manageConversationMember _ _ actor target _
  | removeConversationMember _ _ actor target => some (actor, target)
  | _ => none

/-- What a committed call does to the directory. -/
inductive DirectoryMove (limits : Limits) (d : Directory) : Call → Directory → Prop
  | kept {call : Call} (passive : call.actsOn = none) : DirectoryMove limits d call d
  | communityFounded {now : Time} {id : CommunityID} {createdBy : AccountID} {d' : Directory}
      (fresh : ∀ k ∈ d.communities, k.id ≠ id)
      (communities : ∀ k, k ∈ d'.communities ↔ k ∈ d.communities ∨ k = ⟨id, createdBy⟩)
      (channels : d'.channels = d.channels) (conversations : d'.conversations = d.conversations)
      (roles : Adds d d' fun accountID scope role =>
        accountID = createdBy ∧ scope = .community id ∧ role = .owner) :
      DirectoryMove limits d (.createCommunity now id createdBy) d'
  | channelAdded {id : ChannelID} {communityID : CommunityID} {kind : ChannelKind}
      {createdBy : AccountID} {d' : Directory} (memberships : d'.memberships = d.memberships)
      (communities : d'.communities = d.communities)
      (conversations : d'.conversations = d.conversations) :
      DirectoryMove limits d (.createChannel id communityID kind createdBy) d'
  | channelOpened {now : Time} {channelID : ChannelID} {conversationID : ConversationID}
      {communityID : CommunityID} {kind : ChannelKind} {createdBy : AccountID} {d' : Directory}
      (mem : (d.roleOf createdBy (.community communityID)).isSome)
      (fits : (d.members (.community communityID)).card ≤ limits.conversationMembers)
      (room : ∀ accountID ∈ d.members (.community communityID),
        (d.joined accountID).card + 1 ≤ limits.conversationsPerAccount)
      (fresh : ∀ c ∈ d.conversations, c.id ≠ conversationID)
      (communities : d'.communities = d.communities)
      (channels : ∀ ch, ch ∈ d'.channels ↔ ch ∈ d.channels ∨ ch = ⟨channelID, communityID, kind⟩)
      (conversations : d'.conversations = d.conversations ++ [⟨conversationID, .communityChannel,
        some communityID, some channelID, createdBy, none, .everyone, now⟩])
      (roles : Adds d d' fun accountID scope role =>
        scope = .conversation conversationID ∧ d.roleOf accountID (.community communityID) = some role) :
      DirectoryMove limits d
        (.createChannelWithConversation now channelID conversationID communityID kind createdBy) d'
  | communityManaged {now : Time} {communityID : CommunityID} {actor target : AccountID}
      {role own : Role} {d' : Directory} (acts : d.roleOf actor (.community communityID) = some own)
      (within : role.rank ≤ own.rank)
      (below : ∀ held, d.roleOf target (.community communityID) = some held → held.rank < own.rank)
      (room : d.roleOf target (.community communityID) = none →
        (d.members (.community communityID)).card + 1 ≤ limits.conversationMembers ∧
        (∀ c ∈ d.channelsOf communityID, (d.members (.conversation c.id)).card + 1 ≤ limits.conversationMembers) ∧
        (d.joined target).card + (d.channelsOf communityID).length ≤ limits.conversationsPerAccount)
      (places : SamePlaces d d')
      (roles : Grants d d' target (fun scope => scope = .community communityID ∨
        ∃ c ∈ d.channelsOf communityID, scope = .conversation c.id) (some role)) :
      DirectoryMove limits d (.manageCommunityMember now communityID actor target role) d'
  | conversationFounded {now : Time} {id : ConversationID} {input : CreateConversationInput}
      {members : List AccountID} {d' : Directory} (fits : 1 + members.length ≤ limits.conversationMembers)
      (room : ∀ accountID, accountID = input.createdBy ∨ accountID ∈ members →
        (d.joined accountID).card + 1 ≤ limits.conversationsPerAccount)
      (fresh : ∀ c ∈ d.conversations, c.id ≠ id)
      (channel : input.kind = .communityChannel → ∃ ch ∈ d.channels, input.channelID = some ch.id)
      (unused : ∀ c ∈ d.conversations, c.channelID = none ∨ c.channelID ≠ input.channelID)
      (communities : d'.communities = d.communities) (channels : d'.channels = d.channels)
      (conversations : d'.conversations = d.conversations ++ [⟨id, input.kind, input.communityID,
        input.channelID, input.createdBy, none, .everyone, now⟩])
      (roles : Adds d d' fun accountID scope role => scope = .conversation id ∧
        (accountID = input.createdBy ∧ role = .owner ∨ accountID ∈ members ∧ role = .member)) :
      DirectoryMove limits d (.createOrGetConversation now id input) d'
  | memberAdded {now : Time} {conversationID : ConversationID} {accountID : AccountID} {role : Role}
      {d' : Directory} (known : ∃ c ∈ d.conversations, c.id = conversationID)
      (places : SamePlaces d d')
      (roles : Grants d d' accountID (· = .conversation conversationID)
        (some ((d.roleOf accountID (.conversation conversationID)).getD role))) :
      DirectoryMove limits d (.addConversationMember now conversationID accountID role) d'
  | conversationManaged {now : Time} {conversationID : ConversationID} {actor target : AccountID}
      {role own : Role} {c : Conversation} {d' : Directory}
      (acts : d.roleOf actor (.conversation conversationID) = some own)
      (within : role.rank ≤ own.rank)
      (below : ∀ held, d.roleOf target (.conversation conversationID) = some held → held.rank < own.rank)
      (stored : c ∈ d.conversations) (named : c.id = conversationID)
      (room : d.roleOf target (.conversation conversationID) = none →
        (c.kind = .communityChannel → ∃ communityID, c.communityID = some communityID ∧
          (d.roleOf target (.community communityID)).isSome) ∧
        (d.members (.conversation conversationID)).card + 1 ≤ limits.conversationMembers ∧
        (d.joined target).card + 1 ≤ limits.conversationsPerAccount)
      (places : SamePlaces d d')
      (roles : Grants d d' target (· = .conversation conversationID) (some role)) :
      DirectoryMove limits d (.manageConversationMember now conversationID actor target role) d'
  | memberRemoved {now : Time} {conversationID : ConversationID} {actor target : AccountID}
      {own held : Role} {c : Conversation} {d' : Directory}
      (acts : d.roleOf actor (.conversation conversationID) = some own)
      (holds : d.roleOf target (.conversation conversationID) = some held)
      (stored : c ∈ d.conversations) (named : c.id = conversationID) (group : c.kind = .group)
      (left : actor = target → held = .owner → ∃ other, other ≠ target ∧
        d.roleOf other (.conversation conversationID) = some .owner)
      (below : actor ≠ target → held.rank < own.rank)
      (places : SamePlaces d d')
      (roles : Grants d d' target (· = .conversation conversationID) none) :
      DirectoryMove limits d (.removeConversationMember now conversationID actor target) d'
  | accountDeleted {now : Time} {accountID : AccountID} {d' : Directory} (places : SamePlaces d d')
      (roles : Grants d d' accountID (fun _ => True) none) :
      DirectoryMove limits d (.deleteAccountData now accountID) d'

namespace Store

variable {id : ConversationID} {createdBy actor : AccountID} {kind : ChannelKind}
  {input : CreateConversationInput} {answer : ConversationID × Bool} {limits : Limits} {s s' : Store}
  {now : Time} {p : Membership → Prop}

theorem createCommunity_ok (limits : Limits) {id : CommunityID}
    (ok : s.createCommunity now id createdBy = .ok (u, s')) :
    Calm s s' ∧ DirectoryMove limits s.directory (.createCommunity now id createdBy) s'.directory := by
  unfold createCommunity at ok
  split at ok
  · cases ok
  · next communities founded =>
    obtain ⟨joined, inserted, ok⟩ := bind_eq_ok.mp ok
    cases ok
    obtain ⟨calm, places, roles⟩ := insertMembership_ok inserted
    have first : Calm s { s with communities } := ⟨.of_eq rfl rfl rfl rfl rfl rfl, ⟨rfl, rfl, rfl⟩⟩
    refine ⟨first.trans calm,
      .communityFounded (Table.free_of_insert? founded) ?_ places.channels places.conversations roles⟩
    intro k
    rw [places.communities]
    exact Table.mem_of_insert? founded k

theorem createChannel_ok (limits : Limits) {id : ChannelID}
    (ok : s.createChannel id communityID kind createdBy = .ok (u, s')) :
    Calm s s' ∧ DirectoryMove limits s.directory (.createChannel id communityID kind createdBy) s'.directory := by
  unfold createChannel at ok
  split at ok
  · have ok := of_require ok
    split at ok
    · cases ok
    · cases ok
      exact ⟨⟨.of_eq rfl rfl rfl rfl rfl rfl, ⟨rfl, rfl, rfl⟩⟩, .channelAdded rfl rfl rfl⟩
  · cases ok

/-- The accounts that a channel takes over from its community, with their roles. -/
theorem mem_communityMembers :
    (accountID, role) ∈ ((s.memberships.rows.filter (·.scope = .community communityID)).map
      fun m => (m.accountID, m.role)) ↔
      s.directory.roleOf accountID (.community communityID) = some role := by
  rw [roleOf_eq_some, List.mem_map]
  refine exists_congr fun m => ?_
  rw [List.mem_filter, decide_eq_true_eq, Prod.mk.injEq]
  exact ⟨fun ⟨⟨stored, scope⟩, account, role⟩ => ⟨stored, account, scope, role⟩,
    fun ⟨stored, account, scope, role⟩ => ⟨⟨stored, scope⟩, account, role⟩⟩

theorem createChannelWithConversation_ok {channelID : ChannelID}
    (ok : createChannelWithConversation limits s now channelID conversationID communityID kind
      createdBy = .ok (u, s')) :
    Calm s s' ∧ DirectoryMove limits s.directory
      (.createChannelWithConversation now channelID conversationID communityID kind createdBy)
      s'.directory := by
  unfold createChannelWithConversation at ok
  split at ok
  · next actor found =>
    have ok := of_require ok
    obtain ⟨_, fits, ok⟩ := bind_eq_ok.mp ok
    obtain ⟨_, own, ok⟩ := bind_eq_ok.mp ok
    obtain ⟨_, others, ok⟩ := bind_eq_ok.mp ok
    split at ok
    · cases ok
    · next channels added =>
      obtain ⟨opened, inserted, ok⟩ := bind_eq_ok.mp ok
      obtain ⟨joined, joining, ok⟩ := bind_eq_ok.mp ok
      cases ok
      obtain ⟨opening, fresh, -, after⟩ := insertConversation_ok inserted
      obtain ⟨calm, places, roles⟩ := joinAll_ok joining
      rw [after] at places roles
      have first : Calm s { s with channels } := ⟨.of_eq rfl rfl rfl rfl rfl rfl, ⟨rfl, rfl, rfl⟩⟩
      refine ⟨(first.trans opening).trans calm, ?_⟩
      refine .channelOpened (roleOf_of_found found ▸ rfl) ?_ ?_ fresh places.communities ?_
        places.conversations ?_
      · have counted := checkMembers_ok fits
        rwa [Nat.zero_add, memberCount_eq] at counted
      · intro accountID mem
        by_cases creates : accountID = createdBy
        · exact creates ▸ checkConversations_ok own
        · obtain ⟨role, holds⟩ := Option.isSome_iff_exists.mp (mem_members.mp mem)
          obtain ⟨m, listed, same⟩ := List.mem_map.mp (mem_communityMembers.mpr holds)
          have account : m.accountID = accountID := congrArg Prod.fst same
          have checked := forM_ok others m listed
          rw [account, if_neg creates] at checked
          exact checkConversations_ok checked
      · intro ch
        rw [places.channels]
        exact Table.mem_of_insert? added ch
      · intro accountID scope role
        refine (roles accountID scope role).trans ?_
        exact or_congr_right (and_congr_right fun _ => mem_communityMembers)
  · cases ok

/-- The role set in a community is set in all its channels. -/
theorem setCommunityRole_grants (s : Store) (communityID : CommunityID) (target : AccountID) (role : Role)
    (now : Time) :
    let managed := s.setMembership target (.community communityID) role now
    let after := (managed.setRoleInEach target role now
      ((managed.communityConversations communityID).map (·.id))).2
    Calm s after ∧ SamePlaces s.directory after.directory ∧ Grants s.directory after.directory target
      (fun scope => scope = .community communityID ∨
        ∃ c ∈ s.directory.channelsOf communityID, scope = .conversation c.id) (some role) := by
  intro managed after
  obtain ⟨calm, places, rest⟩ := managed.setRoleInEach_grants target role now
    ((managed.communityConversations communityID).map (·.id))
  have roles := (s.setMembership_grants target (.community communityID) role now).then rest
  refine ⟨(s.setMembership_calm target (.community communityID) role now).trans calm,
    ⟨places.communities, places.channels, places.conversations⟩, ?_⟩
  rw [communityConversations_outlines]
  simp only [List.mem_map, exists_exists_and_eq_and] at roles ⊢
  exact roles

theorem manageCommunityMember_ok {eventIDs : List EventID}
    (ok : manageCommunityMember limits s now communityID actor target role = .ok (eventIDs, s')) :
    Calm s s' ∧ DirectoryMove limits s.directory (.manageCommunityMember now communityID actor target role)
      s'.directory := by
  unfold manageCommunityMember at ok
  split at ok
  · next acting found =>
    obtain ⟨⟨-, within⟩, ok⟩ := require_ok.mp ok
    have ok := of_require ok
    have ok := of_require ok
    obtain ⟨calm, places, roles⟩ := s.setCommunityRole_grants communityID target role now
    split at ok
    · next current held =>
      obtain ⟨_, below, ok⟩ := bind_eq_ok.mp ok
      obtain rfl := congrArg Prod.snd (pure_eq_ok.mp ok)
      refine ⟨calm, .communityManaged (roleOf_of_found found) within ?_ ?_ places roles⟩
      · intro role holds
        cases (roleOf_of_found held).symm.trans holds
        exact require_eq_ok.mp below
      · intro missing
        cases (roleOf_of_found held).symm.trans missing
    · next missing =>
      obtain ⟨_, checked, ok⟩ := bind_eq_ok.mp ok
      obtain rfl := congrArg Prod.snd (pure_eq_ok.mp ok)
      refine ⟨calm, .communityManaged (roleOf_of_found found) within ?_
        (fun _ => checkNewCommunityMember_ok checked) places roles⟩
      intro role holds
      cases (roleOf_of_missing missing).symm.trans holds
  · cases ok

theorem checkChannel_ok {members : List AccountID} (valid : input.valid members)
    (checked : s.checkChannel input = .ok u) (channel : input.kind = .communityChannel) :
    ∃ ch ∈ s.directory.channels, input.channelID = some ch.id := by
  have shape := valid.2.2.2
  unfold CreateConversationInput.shapeFits at shape
  unfold checkChannel at checked
  simp only [channel, Bool.and_eq_true, Option.isSome_iff_exists] at shape
  obtain ⟨⟨communityID, community⟩, channelID, named⟩ := shape
  simp only [channel, community, named] at checked
  have checked := of_require checked
  split at checked
  · next ch found =>
    obtain ⟨stored, same⟩ := Table.find?_eq_some.mp found
    exact ⟨ch, stored, named.trans (congrArg some same.symm)⟩
  · cases checked

/-- A conversation with the listed members was founded. -/
structure ConversationFounded (limits : Limits) (s : Store) (now : Time) (id : ConversationID)
    (input : CreateConversationInput) (members : List AccountID) (d' : Directory) : Prop where
  valid : input.valid members
  fits : 1 + members.length ≤ limits.conversationMembers
  room : ∀ accountID, accountID = input.createdBy ∨ accountID ∈ members →
    (s.directory.joined accountID).card + 1 ≤ limits.conversationsPerAccount
  fresh : ∀ c ∈ s.directory.conversations, c.id ≠ id
  channel : input.kind = .communityChannel → ∃ ch ∈ s.directory.channels, input.channelID = some ch.id
  unused : ∀ c ∈ s.directory.conversations, c.channelID = none ∨ c.channelID ≠ input.channelID
  communities : d'.communities = s.directory.communities
  channels : d'.channels = s.directory.channels
  conversations : d'.conversations = s.directory.conversations ++ [⟨id, input.kind, input.communityID,
    input.channelID, input.createdBy, none, .everyone, now⟩]
  roles : Directory.Adds s.directory d' fun accountID scope role => scope = .conversation id ∧
    (accountID = input.createdBy ∧ role = .owner ∨ accountID ∈ members ∧ role = .member)

section

variable (ok : createOrGetConversation limits s now id input = .ok (answer, s'))

include ok

theorem createOrGetConversation_ok :
    Calm s s' ∧ (s'.directory = s.directory ∨ ConversationFounded limits s now id input
      (normalizeMembers input.createdBy input.memberAccountIDs) s'.directory) := by
  obtain ⟨valid, ok⟩ := require_ok.mp ok
  obtain ⟨_, channel, ok⟩ := bind_eq_ok.mp ok
  obtain ⟨_, -, ok⟩ := bind_eq_ok.mp ok
  split at ok
  · cases ok
    exact ⟨.refl s, .inl rfl⟩
  · obtain ⟨_, fits, ok⟩ := bind_eq_ok.mp ok
    obtain ⟨_, own, ok⟩ := bind_eq_ok.mp ok
    obtain ⟨_, others, ok⟩ := bind_eq_ok.mp ok
    obtain ⟨opened, inserted, ok⟩ := bind_eq_ok.mp ok
    obtain ⟨owned, owning, ok⟩ := bind_eq_ok.mp ok
    obtain ⟨joined, joining, ok⟩ := bind_eq_ok.mp ok
    -- The pair of a direct conversation is no part of the directory.
    have paired : ∃ dmPairs, s' = { joined with dmPairs } := by
      split at ok
      · dsimp only at ok
        split at ok <;> cases ok
        exact ⟨_, rfl⟩
      · cases ok
        exact ⟨_, rfl⟩
    obtain ⟨_, rfl⟩ := paired
    obtain ⟨first, fresh, unused, opening⟩ := insertConversation_ok inserted
    obtain ⟨second, ownerPlaces, ownerRoles⟩ := insertMembership_ok owning
    obtain ⟨third, restPlaces, restRoles⟩ := joinAll_ok joining
    have calm := (first.trans second).trans third
    have places := ownerPlaces.trans restPlaces
    rw [opening] at places ownerRoles
    have limited := checkMembers_ok fits
    rw [Nat.zero_add] at limited
    refine ⟨calm.trans ⟨.of_eq rfl rfl rfl rfl rfl rfl, ⟨rfl, rfl, rfl⟩⟩, .inr ⟨valid, limited, ?_, fresh,
      checkChannel_ok valid channel, unused, places.communities, places.channels, places.conversations, ?_⟩⟩
    · rintro accountID (rfl | listed)
      · exact checkConversations_ok own
      · exact checkConversations_ok (forM_ok others accountID listed)
    · intro accountID scope role
      refine (restRoles accountID scope role).trans ?_
      rw [ownerRoles, or_assoc]
      refine or_congr Iff.rfl ?_
      simp only [List.mem_map, Prod.mk.injEq]
      constructor
      · rintro (⟨account, rfl, rfl⟩ | ⟨rfl, _, listed, rfl, rfl⟩)
        · exact ⟨rfl, .inl ⟨account, rfl⟩⟩
        · exact ⟨rfl, .inr ⟨listed, rfl⟩⟩
      · rintro ⟨rfl, ⟨account, rfl⟩ | ⟨listed, rfl⟩⟩
        · exact .inl ⟨account, rfl, rfl⟩
        · exact .inr ⟨rfl, accountID, listed, rfl, rfl⟩

theorem createOrGetConversation_move :
    DirectoryMove limits s.directory (.createOrGetConversation now id input) s'.directory := by
  rcases (createOrGetConversation_ok ok).2 with same | founded
  · rw [same]
    exact .kept rfl
  · exact .conversationFounded founded.fits founded.room founded.fresh founded.channel founded.unused
      founded.communities founded.channels founded.conversations founded.roles

end

theorem roleOf_insertOrIgnore (s : Store) (row : Membership) (accountID : AccountID) (scope : Scope) :
    { s with memberships := s.memberships.insertOrIgnore row }.directory.roleOf accountID scope =
      if row.key = (accountID, scope) then some ((s.directory.roleOf accountID scope).getD row.role)
      else s.directory.roleOf accountID scope := by
  have found := @Table.find?_insertOrIgnore _ _ _ _ s.memberships row (accountID, scope)
  have role (held : Option Membership) :
      (some (held.getD row)).map (·.role) = some ((held.map (·.role)).getD row.role) := by
    cases held <;> rfl
  refine (congrArg (Option.map (·.role)) found).trans ?_
  split
  · exact role _
  · rfl

theorem addConversationMember_ok
    (ok : addConversationMember limits s now conversationID accountID role = .ok (u, s')) :
    Calm s s' ∧ (∃ c, s.conversations.find? conversationID = some c ∧ c.kind ≠ .dm) ∧
      DirectoryMove limits s.directory (.addConversationMember now conversationID accountID role)
        s'.directory := by
  unfold addConversationMember at ok
  split at ok
  · next c found =>
    obtain ⟨indirect, ok⟩ := require_ok.mp ok
    have after : s' = { s with memberships :=
        s.memberships.insertOrIgnore ⟨accountID, .conversation conversationID, role, now⟩ } := by
      split at ok
      · cases ok
        rfl
      · obtain ⟨_, -, ok⟩ := bind_eq_ok.mp ok
        cases ok
        rfl
    rw [after]
    refine ⟨.memberships s _ fun m mem => ⟨m, Table.mem_insertOrIgnore.mpr (.inl mem), rfl, rfl⟩,
      ⟨c, found, indirect⟩, .memberAdded ⟨_, stored_of_find? found⟩ ⟨rfl, rfl, rfl⟩ ⟨?_, ?_⟩⟩
    · rintro _ rfl
      exact (s.roleOf_insertOrIgnore _ accountID _).trans (if_pos rfl)
    · intro other scope elsewhere
      refine (s.roleOf_insertOrIgnore _ other scope).trans (if_neg fun same => ?_)
      exact elsewhere ⟨(congrArg Prod.fst same).symm, (congrArg Prod.snd same).symm⟩
  · cases ok

theorem checkJoinsChannel_ok (checked : s.checkJoinsChannel c accountID = .ok u)
    (channel : c.kind = .communityChannel) :
    ∃ communityID, c.communityID = some communityID ∧
      (s.directory.roleOf accountID (.community communityID)).isSome := by
  unfold checkJoinsChannel at checked
  simp only [channel] at checked
  cases community : c.communityID with
  | none =>
    rw [community] at checked
    cases checked
  | some communityID =>
    simp only [community] at checked
    exact ⟨communityID, rfl, membership?_isSome.mp (require_eq_ok.mp checked)⟩

theorem manageConversationMember_ok
    (ok : manageConversationMember limits s now conversationID actor target role = .ok (eventID, s')) :
    Calm s s' ∧ (∃ c, s.conversations.find? conversationID = some c ∧ c.kind ≠ .dm) ∧
      DirectoryMove limits s.directory (.manageConversationMember now conversationID actor target role)
        s'.directory := by
  unfold manageConversationMember at ok
  split at ok
  · next acting found =>
    split at ok
    · next c stored =>
      obtain ⟨indirect, ok⟩ := require_ok.mp ok
      obtain ⟨⟨-, within⟩, ok⟩ := require_ok.mp ok
      have ok := of_require ok
      have ok := of_require ok
      obtain ⟨listed, named⟩ := stored_of_find? stored
      have calm := s.setMembership_calm target (.conversation conversationID) role now
      have roles := s.setMembership_grants target (.conversation conversationID) role now
      split at ok
      · next current held =>
        obtain ⟨below, ok⟩ := require_ok.mp ok
        cases ok
        refine ⟨calm.trans (.event _ ⟨rfl, rfl⟩), ⟨c, stored, indirect⟩, .conversationManaged
          (roleOf_of_found found) within ?_ listed named ?_ ⟨rfl, rfl, rfl⟩ roles⟩
        · intro role holds
          cases (roleOf_of_found held).symm.trans holds
          exact below
        · intro missing
          cases (roleOf_of_found held).symm.trans missing
      · next missing =>
        obtain ⟨_, joins, ok⟩ := bind_eq_ok.mp ok
        obtain ⟨_, checked, ok⟩ := bind_eq_ok.mp ok
        cases ok
        refine ⟨calm.trans (.event _ ⟨rfl, rfl⟩), ⟨c, stored, indirect⟩, .conversationManaged
          (roleOf_of_found found) within ?_ listed named ?_ ⟨rfl, rfl, rfl⟩ roles⟩
        · intro role holds
          cases (roleOf_of_missing missing).symm.trans holds
        · exact fun _ => ⟨checkJoinsChannel_ok joins, checkNewConversationMember_ok checked⟩
    · cases ok
  · cases ok

/-- An account has one row in a scope. -/
theorem accounts_nodup [DecidablePred p] {scope : Scope}
    (here : ∀ m, p m → m.scope = scope) : ((s.memberships.rows.filter (p ·)).map (·.accountID)).Nodup := by
  refine List.Nodup.map_on ?_ (s.memberships.unique.of_map.filter _)
  intro left leftHere right rightHere same
  obtain ⟨leftStored, leftScope⟩ := List.mem_filter.mp leftHere
  obtain ⟨rightStored, rightScope⟩ := List.mem_filter.mp rightHere
  have scope := (here left (of_decide_eq_true leftScope)).trans (here right (of_decide_eq_true rightScope)).symm
  exact List.inj_on_of_nodup_map s.memberships.unique leftStored rightStored (Prod.ext same scope)

/-- A group with a second owner row has an owner besides any one account. -/
theorem other_owner (two : 1 < (s.memberships.rows.filter fun m =>
      m.scope = .conversation conversationID ∧ m.role = .owner).length) :
    ∃ other, other ≠ target ∧ s.directory.roleOf other (.conversation conversationID) = some .owner := by
  rw [← List.length_map (·.accountID), ← List.toFinset_card_of_nodup (accounts_nodup fun _ hit => hit.1)] at two
  obtain ⟨other, owner, apart⟩ := Finset.exists_mem_ne two target
  obtain ⟨m, listed, rfl⟩ := List.mem_map.mp (List.mem_toFinset.mp owner)
  obtain ⟨stored, condition⟩ := List.mem_filter.mp listed
  obtain ⟨scope, role⟩ := of_decide_eq_true condition
  exact ⟨m.accountID, apart, roleOf_eq_some.mpr ⟨m, stored, rfl, scope, role⟩⟩

/-- Deleting the account's rows in some scopes takes exactly those roles away. -/
theorem grants_delete [DecidablePred p] (hits : ∀ m, p m ↔ m.accountID = target ∧ scopes m.scope)
    (after : s'.memberships = s.memberships.delete p) :
    Grants s.directory s'.directory target scopes none := by
  have left_iff (m : Membership) : m ∈ s'.directory.memberships ↔ m ∈ s.directory.memberships ∧ ¬ p m := by
    change m ∈ s'.memberships ↔ _
    rw [after]
    exact Table.mem_delete
  constructor
  · intro scope here
    refine Option.eq_none_iff_forall_ne_some.mpr fun role holds => ?_
    obtain ⟨m, mem, account, within, -⟩ := roleOf_eq_some.mp holds
    exact ((left_iff m).mp mem).2 ((hits m).mpr ⟨account, within ▸ here⟩)
  · intro accountID scope elsewhere
    refine Option.ext fun role => ?_
    rw [roleOf_eq_some, roleOf_eq_some]
    refine exists_congr fun m => ⟨fun ⟨mem, here⟩ => ⟨((left_iff m).mp mem).1, here⟩, ?_⟩
    rintro ⟨mem, rfl, rfl, role⟩
    exact ⟨(left_iff m).mpr ⟨mem, fun hit => elsewhere ((hits m).mp hit)⟩, rfl, rfl, role⟩

theorem removeConversationMember_ok (limits : Limits) {events : MembershipRemovalEvents}
    (ok : s.removeConversationMember now conversationID actor target = .ok (events, s')) :
    Quiet s s' ∧ s'.devices = s.devices ∧ (s'.memberships = s.memberships.delete fun m =>
      m.scope = .conversation conversationID ∧ m.accountID = target) ∧ SameBlobs s s' ∧
    DirectoryMove limits s.directory (.removeConversationMember now conversationID actor target)
      s'.directory := by
  unfold removeConversationMember at ok
  split at ok
  · next acting found =>
    split at ok
    · next c stored =>
      obtain ⟨group, ok⟩ := require_ok.mp ok
      split at ok
      · next leaving held =>
        obtain ⟨listed, named⟩ := stored_of_find? stored
        have hits (m : Membership) : (m.scope = .conversation conversationID ∧ m.accountID = target) ↔
            m.accountID = target ∧ m.scope = .conversation conversationID := and_comm
        let memberships := s.memberships.delete fun m =>
          m.scope = .conversation conversationID ∧ m.accountID = target
        have removed : Quiet s { s with memberships } := ⟨rfl, rfl, rfl, .refl _⟩
        split at ok
        · next own =>
          obtain ⟨left, ok⟩ := require_ok.mp ok
          cases ok
          refine ⟨removed.trans (.of_calm (.trans (.event _ ⟨rfl, rfl⟩) (.event _ ⟨rfl, rfl⟩))), rfl, rfl,
            ⟨rfl, rfl, rfl⟩, ?_⟩
          exact .memberRemoved (roleOf_of_found found) (roleOf_of_found held) listed named group
            (fun _ owner => other_owner (left owner)) (fun other => absurd own other) ⟨rfl, rfl, rfl⟩
            (grants_delete hits rfl)
        · next other =>
          obtain ⟨⟨-, below⟩, ok⟩ := require_ok.mp ok
          cases ok
          refine ⟨removed.trans (.of_calm (.trans (.event _ ⟨rfl, rfl⟩) (.event _ ⟨rfl, rfl⟩))), rfl, rfl,
            ⟨rfl, rfl, rfl⟩, ?_⟩
          exact .memberRemoved (roleOf_of_found found) (roleOf_of_found held) listed named group
            (fun own => absurd own other) (fun _ => below) ⟨rfl, rfl, rfl⟩ (grants_delete hits rfl)
      · cases ok
    · cases ok
  · cases ok

end Store

end Veritra.Storage
