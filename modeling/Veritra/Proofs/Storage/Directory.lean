import Veritra.Proofs.Storage.Quiet
import Veritra.Relational.Keys

/-! # Who belongs where

The directory of the store is what the membership rules read: the memberships, the communities and
their channels, and what the conversations are. The two settings of a conversation that may change
later are no part of it. A membership is looked up as the role an account holds in a scope, and the
member limits count the accounts that hold a role.
-/

namespace Veritra.Storage

open Relational Machine

variable {accountID : AccountID}

/-- The conversation without the settings that its managers may change. -/
def Conversation.outline (c : Conversation) : Conversation :=
  { c with retentionSeconds := none, postingPolicy := .everyone }

/-- The tables that the membership rules read. -/
structure Directory where
  memberships : Table Membership Membership.key
  communities : Table Community Community.id
  channels : Table Channel Channel.id
  conversations : List Conversation

def Store.directory (s : Store) : Directory :=
  ⟨s.memberships, s.communities, s.channels, s.conversations.rows.map Conversation.outline⟩

namespace Directory

variable {scope : Scope}

variable (d : Directory)

def roleOf (accountID : AccountID) (scope : Scope) : Option Role :=
  (d.memberships.find? (accountID, scope)).map (·.role)

def members (scope : Scope) : Finset AccountID := (d.memberships.keys.filter (·.2 = scope)).image Prod.fst

def joined (accountID : AccountID) : Finset Scope :=
  (d.memberships.keys.filter fun k => k.1 = accountID ∧ k.2.isConversation).image Prod.snd

def channelsOf (communityID : CommunityID) : List Conversation :=
  d.conversations.filter fun c => c.communityID = some communityID ∧ c.kind = .communityChannel

variable {d}

theorem mem_keys : (accountID, scope) ∈ d.memberships.keys ↔ (d.roleOf accountID scope).isSome := by
  rw [Table.mem_keys_iff_find?, roleOf, Option.isSome_map]

theorem mem_members : accountID ∈ d.members scope ↔ (d.roleOf accountID scope).isSome := by
  simp [members, ← mem_keys]

theorem mem_joined :
    scope ∈ d.joined accountID ↔ (d.roleOf accountID scope).isSome ∧ scope.isConversation := by
  simp [joined, ← mem_keys]

theorem mem_channelsOf {communityID : CommunityID} {c : Conversation} : c ∈ d.channelsOf communityID ↔
      c ∈ d.conversations ∧ c.communityID = some communityID ∧ c.kind = .communityChannel := by
  simp [channelsOf]

/-- The role column under a key of the membership table. -/
theorem roleOf_eq_some {role : Role} : d.roleOf accountID scope = some role ↔
      ∃ m ∈ d.memberships, m.accountID = accountID ∧ m.scope = scope ∧ m.role = role := by
  unfold roleOf
  rw [Option.map_eq_some_iff]
  refine exists_congr fun m => ?_
  rw [Table.find?_eq_some, Membership.key, Prod.mk.injEq, and_assoc, and_assoc]

end Directory

namespace Store

variable (s : Store)

theorem membership?_role (accountID : AccountID) (scope : Scope) :
    (s.membership? accountID scope).map (·.role) = s.directory.roleOf accountID scope := rfl

theorem memberCount_eq (scope : Scope) : s.memberCount scope = (s.directory.members scope).card := by
  unfold Directory.members
  rw [Finset.card_image_of_injOn, Table.card_filter_keys]
  · rfl
  · intro left leftHere right rightHere same
    simp only [Finset.coe_filter, Set.mem_ofPred_eq] at leftHere rightHere
    exact Prod.ext same (leftHere.2.trans rightHere.2.symm)

theorem conversationCount_eq (accountID : AccountID) :
    s.conversationCount accountID = (s.directory.joined accountID).card := by
  unfold Directory.joined
  rw [Finset.card_image_of_injOn, Table.card_filter_keys]
  · simp only [conversationCount, Bool.decide_and, Bool.decide_eq_true]
    rfl
  · intro left leftHere right rightHere same
    simp only [Finset.coe_filter, Set.mem_ofPred_eq] at leftHere rightHere
    exact Prod.ext (leftHere.2.1.trans rightHere.2.1.symm) same

theorem communityConversations_outlines (communityID : CommunityID) : s.directory.channelsOf communityID =
      (s.communityConversations communityID).map Conversation.outline := by
  unfold Directory.channelsOf communityConversations directory
  rw [List.filter_map]
  rfl

theorem directory_distinct : (s.directory.conversations.map (·.id)).Nodup := by
  unfold Store.directory
  rw [List.map_map]
  exact s.conversations.unique

end Store

end Veritra.Storage
