import Veritra.Proofs.Storage.DirectorySteps

/-! # The members of direct conversations

A direct conversation is founded with its two members. Nobody enters it later: every call that adds a
member refuses direct conversations or adds to channels only. A member goes when the account is deleted.
-/

namespace Veritra.Storage

open Relational Machine Directory

namespace Directory

/-- What a call may do to the direct conversations. -/
structure DirectKept (d d' : Directory) : Prop where
  stored : ∀ c ∈ d.conversations, c ∈ d'.conversations
  within : ∀ c ∈ d.conversations, c.kind = .dm → d'.members (.conversation c.id) ⊆ d.members (.conversation c.id)

/-- Members belong to conversations that exist, and direct conversations have two at most. -/
structure DirectSound (d : Directory) : Prop where
  placed : ∀ k a, a ∈ d.members (.conversation k) → ∃ c ∈ d.conversations, c.id = k
  pairs : ∀ c ∈ d.conversations, c.kind = .dm → (d.members (.conversation c.id)).card ≤ 2

variable {d d' : Directory}

/-- Roles that are given or taken in places that exist and are no direct conversations. -/
theorem direct_of_places (sound : DirectSound d) (conversations : d'.conversations = d.conversations)
    (members : ∀ k a, a ∈ d'.members (.conversation k) → a ∈ d.members (.conversation k) ∨
      ∃ c ∈ d.conversations, c.id = k ∧ ∀ other ∈ d.conversations, other.id = k → other.kind ≠ .dm) :
    DirectKept d d' ∧ DirectSound d' := by
  have within : ∀ c ∈ d.conversations, c.kind = .dm →
      d'.members (.conversation c.id) ⊆ d.members (.conversation c.id) := by
    intro c stored direct a mem
    refine (members c.id a mem).resolve_right ?_
    rintro ⟨-, -, -, others⟩
    exact others c stored rfl direct
  refine ⟨⟨fun c stored => conversations ▸ stored, within⟩, ⟨fun k a mem => ?_, fun c stored direct => ?_⟩⟩
  · rw [conversations]
    rcases members k a mem with old | ⟨c, stored, named, -⟩
    · exact sound.placed k a old
    · exact ⟨c, stored, named⟩
  · rw [conversations] at stored
    exact (Finset.card_le_card (within c stored direct)).trans (sound.pairs c stored direct)

/-- A conversation is founded, with two members if it is a direct one. -/
theorem direct_of_founding (sound : DirectSound d) (new : Conversation) (joins : AccountID → Prop)
    (fresh : ∀ c ∈ d.conversations, c.id ≠ new.id)
    (conversations : d'.conversations = d.conversations ++ [new])
    (members : ∀ k a, a ∈ d'.members (.conversation k) ↔ a ∈ d.members (.conversation k) ∨ k = new.id ∧ joins a)
    (pair : new.kind = .dm → ∃ left right, ∀ a, joins a → a = left ∨ a = right) :
    DirectKept d d' ∧ DirectSound d' := by
  have within : ∀ c ∈ d.conversations, d'.members (.conversation c.id) ⊆ d.members (.conversation c.id) := by
    intro c stored a mem
    exact ((members c.id a).mp mem).resolve_right fun here => fresh c stored here.1
  refine ⟨⟨fun c stored => ?_, fun c stored _ => within c stored⟩, ⟨fun k a mem => ?_, fun c stored direct => ?_⟩⟩
  · rw [conversations]
    exact List.mem_append_left _ stored
  · rw [conversations]
    rcases (members k a).mp mem with old | ⟨rfl, -⟩
    · obtain ⟨c, stored, named⟩ := sound.placed k a old
      exact ⟨c, List.mem_append_left _ stored, named⟩
    · exact ⟨new, List.mem_concat_self, rfl⟩
  · rw [conversations] at stored
    rcases List.mem_append.mp stored with old | last
    · exact (Finset.card_le_card (within c old)).trans (sound.pairs c old direct)
    · cases List.mem_singleton.mp last
      obtain ⟨left, right, listed⟩ := pair direct
      refine (Finset.card_le_card fun a mem => ?_).trans (Finset.card_le_two (a := left) (b := right))
      rw [Finset.mem_insert, Finset.mem_singleton]
      rcases (members new.id a).mp mem with old | ⟨-, joined⟩
      · obtain ⟨c, known, named⟩ := sound.placed new.id a old
        exact absurd named (fresh c known)
      · exact listed a joined

end Directory

namespace Store

variable {limits : Limits} {s s' : Store} {conversationID : ConversationID}

/-- A conversation that the store finds is the only one of its name in the directory. -/
theorem kind_of_found {found : Conversation} (stored : s.conversations.find? conversationID = some found) :
    ∃ c ∈ s.directory.conversations, c.id = conversationID ∧
      ∀ other ∈ s.directory.conversations, other.id = conversationID → other.kind = found.kind := by
  obtain ⟨mem, named⟩ := Table.find?_eq_some.mp stored
  have listed : found.outline ∈ s.directory.conversations := List.mem_map_of_mem mem
  refine ⟨found.outline, listed, named, fun other known same => ?_⟩
  cases List.inj_on_of_nodup_map s.directory_distinct known listed (same.trans named.symm)
  rfl

/-- Members are added to conversations that are not direct. -/
theorem notDirect_of_step {call : Call} {given : Answer} (ok : step limits s call = .ok (given, s'))
    (adds : (∃ now accountID role, call = .addConversationMember now conversationID accountID role) ∨
      ∃ now actor target role, call = .manageConversationMember now conversationID actor target role) :
    ∃ c ∈ s.directory.conversations, c.id = conversationID ∧
      ∀ other ∈ s.directory.conversations, other.id = conversationID → other.kind ≠ .dm := by
  have found : ∃ c, s.conversations.find? conversationID = some c ∧ c.kind ≠ .dm := by
    rcases adds with ⟨now, accountID, role, rfl⟩ | ⟨now, actor, target, role, rfl⟩
    · simp only [step] at ok
      obtain ⟨_, ok, -⟩ := answer_eq_ok ok
      exact (addConversationMember_ok ok).2.1
    · obtain ⟨_, ok, -⟩ := answer_eq_ok ok
      exact (manageConversationMember_ok ok).2.1
  obtain ⟨c, stored, indirect⟩ := found
  obtain ⟨first, listed, named, kinds⟩ := kind_of_found stored
  exact ⟨first, listed, named, fun other known same => kinds other known same ▸ indirect⟩

end Store

open Store

/-- Every call keeps the direct conversations and lets nobody in. -/
theorem direct_of_step {limits : Limits} {s s' : Store} {call : Call} {given : Answer}
    (ok : step limits s call = .ok (given, s')) (sound : DirectSound s.directory) :
    DirectKept s.directory s'.directory ∧ DirectSound s'.directory := by
  have move := directoryMove_of_step ok
  by_cases founds : ∃ now id input, call = .createOrGetConversation now id input
  · obtain ⟨now, id, input, rfl⟩ := founds
    simp only [step] at ok
    obtain ⟨_, ok, -⟩ := answer_eq_ok ok
    rcases (createOrGetConversation_ok ok).2 with same | founded
    · exact direct_of_places sound (congrArg _ same) fun k a mem => .inl (same ▸ mem)
    · let members := normalizeMembers input.createdBy input.memberAccountIDs
      let new : Conversation := ⟨id, input.kind, input.communityID, input.channelID, input.createdBy, none,
        .everyone, now⟩
      refine direct_of_founding sound new (fun a => a = input.createdBy ∨ a ∈ members) founded.fresh
        founded.conversations ?_ ?_
      · intro k a
        rw [founded.roles.mem_members]
        simp only [new, members, Scope.conversation.injEq, exists_and_left, exists_or, exists_eq, and_true]
      · intro direct
        have shape := founded.valid.2.2.2
        have kind : input.kind = .dm := direct
        simp only [CreateConversationInput.shapeFits, kind, Bool.and_eq_true, decide_eq_true_eq] at shape
        obtain ⟨other, only⟩ := List.length_eq_one_iff.mp shape.1.1.1
        exact ⟨input.createdBy, other, fun a joined => joined.imp_right fun listed =>
          List.mem_singleton.mp (only ▸ listed)⟩
  generalize reached : s'.directory = d' at move ⊢
  cases move with
  | kept => exact direct_of_places sound rfl fun _ _ mem => .inl mem
  | communityFounded _ _ _ conversations roles =>
    refine direct_of_places sound conversations fun k a mem => .inl ?_
    refine (roles.mem_members.mp mem).resolve_right ?_
    rintro ⟨_, -, other, -⟩
    cases other
  | channelAdded memberships _ conversations =>
    refine direct_of_places sound conversations fun k a mem => .inl ?_
    unfold Directory.members at mem ⊢
    rwa [memberships] at mem
  | @channelOpened now channelID conversationID communityID _ createdBy _ _ _ _ fresh _ _ conversations
      roles =>
    refine direct_of_founding sound _ (fun a => (s.directory.roleOf a (.community communityID)).isSome)
      fresh conversations (fun k a => ?_) fun direct => ConversationKind.noConfusion direct
    rw [roles.mem_members]
    rw [exists_and_left, Scope.conversation.injEq, Option.isSome_iff_exists]
  | communityManaged _ _ _ _ places roles =>
    refine direct_of_places sound places.conversations fun k a mem => ?_
    refine (roles.mem_members_set.mp mem).imp_right ?_
    rintro ⟨-, other | ⟨c, channel, same⟩⟩
    · cases other
    · cases same
      obtain ⟨listed, -, kind⟩ := mem_channelsOf.mp channel
      refine ⟨c, listed, rfl, fun other known named => ?_⟩
      cases List.inj_on_of_nodup_map s.directory_distinct known listed named
      rw [kind]
      exact ConversationKind.noConfusion
  | conversationFounded => exact absurd ⟨_, _, _, rfl⟩ founds
  | memberAdded _ places roles | conversationManaged _ _ _ _ _ _ places roles =>
    have indirect := notDirect_of_step ok (by first | exact .inl ⟨_, _, _, rfl⟩ | exact .inr ⟨_, _, _, _, rfl⟩)
    refine direct_of_places sound places.conversations fun k a mem => ?_
    refine (roles.mem_members_set.mp mem).imp_right ?_
    rintro ⟨-, same⟩
    cases same
    exact indirect
  | memberRemoved _ _ _ _ _ _ _ places roles | accountDeleted places roles =>
    exact direct_of_places sound places.conversations fun k a mem =>
      .inl (roles.mem_members_ended.mp mem).1

end Veritra.Storage
