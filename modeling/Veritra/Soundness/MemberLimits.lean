import Veritra.Soundness.RoleEscalation

/-! # Member limits and channel rosters

Adding a member to a community adds the member to all its channels, and opening a channel adds all
members of the community. The limits are checked with counts taken before the change: the members of
the community, those of its largest channel, and the conversations of the account. The counts bound
what the change adds because every channel has exactly the members of its community, which nothing
the server offers can break: a channel comes with its conversation, a conversation for a channel that
has one is refused, and only groups can be left.
-/

namespace Veritra.Storage

open Relational Machine

variable {s : Store}

/-- The HTTP interface offers the call. `AddConversationMember` and `CreateChannel` have no route. -/
def Offered (_ : Store) : Call → Prop
  | .addConversationMember .. | .createChannel .. => False
  | _ => True

/-- The limits hold, and each channel has the members of its community. -/
structure RostersSound (limits : Limits) (s : Store) : Prop where
  perAccount : ∀ accountID, s.conversationCount accountID ≤ limits.conversationsPerAccount
  perConversation : ∀ c ∈ s.conversations, s.memberCount (.conversation c.id) ≤ limits.conversationMembers
  perCommunity : ∀ k ∈ s.communities, s.memberCount (.community k.id) ≤ limits.conversationMembers
  channels : ∀ c ∈ s.conversations, c.kind = .communityChannel →
    ∃ communityID, c.communityID = some communityID ∧ ∀ accountID,
      (s.membership? accountID (.conversation c.id)).isSome ↔ (s.membership? accountID (.community communityID)).isSome

namespace Directory

section Members

variable {d d' : Directory} {accountID target : AccountID} {scope : Scope}

theorem mem_joined_iff_members : scope ∈ d.joined accountID ↔ accountID ∈ d.members scope ∧ scope.isConversation := by
  rw [mem_joined, mem_members]

/-- One account more. -/
theorem card_members_le_succ (target : AccountID) (within : ∀ a ∈ d'.members scope, a ∈ d.members scope ∨ a = target) :
    (d'.members scope).card ≤ (d.members scope).card + 1 := by
  refine (Finset.card_le_card fun a mem => ?_).trans (Finset.card_insert_le target (d.members scope))
  exact Finset.mem_insert.mpr (within a mem).symm

/-- The new conversations at most. -/
theorem card_joined_le_add (new : List Scope)
    (within : ∀ sc ∈ d'.joined accountID, accountID ∈ d.members sc ∨ sc ∈ new) :
    (d'.joined accountID).card ≤ (d.joined accountID).card + new.length := by
  have covered : d'.joined accountID ⊆ d.joined accountID ∪ new.toFinset := by
    intro sc mem
    rcases within sc mem with old | listed
    · exact Finset.mem_union_left _ (mem_joined_iff_members.mpr ⟨old, (mem_joined_iff_members.mp mem).2⟩)
    · exact Finset.mem_union_right _ (List.mem_toFinset.mpr listed)
  calc (d'.joined accountID).card ≤ (d.joined accountID).card + new.toFinset.card :=
        (Finset.card_le_card covered).trans (Finset.card_union_le _ _)
    _ ≤ (d.joined accountID).card + new.length := Nat.add_le_add_left (List.toFinset_card_le _) _

theorem card_joined_le (within : ∀ sc, accountID ∈ d'.members sc → accountID ∈ d.members sc) :
    (d'.joined accountID).card ≤ (d.joined accountID).card :=
  card_joined_le_add [] fun sc mem => .inl (within sc (mem_joined_iff_members.mp mem).1)

end Members

/-- Members belong to something that exists, each channel has its conversation with the members of
its community, and the limits hold. -/
structure Sound (limits : Limits) (d : Directory) : Prop where
  communityExists : ∀ k a, a ∈ d.members (.community k) → ∃ c ∈ d.communities, c.id = k
  conversationExists : ∀ k a, a ∈ d.members (.conversation k) → ∃ c ∈ d.conversations, c.id = k
  opened : ∀ ch ∈ d.channels, ∃ c ∈ d.conversations, c.channelID = some ch.id
  anchored : ∀ c ∈ d.conversations, c.kind = .communityChannel →
    ∃ k ∈ d.communities, c.communityID = some k.id ∧ d.members (.conversation c.id) = d.members (.community k.id)
  joined : ∀ a, (d.joined a).card ≤ limits.conversationsPerAccount
  members : ∀ sc, (d.members sc).card ≤ limits.conversationMembers

variable {limits : Limits} {d d' : Directory}

namespace Sound

variable {target : AccountID} {role : Role}

section

variable (sound : Sound limits d) {scopes : Scope → Prop}
include sound

/-- Members that leave all channels of a community together keep the directory sound. -/
theorem ended (places : SamePlaces d d') (grants : Grants d d' target scopes none)
    (together : ∀ c ∈ d.conversations, ∀ k, c.kind = .communityChannel → c.communityID = some k →
      (scopes (.conversation c.id) ↔ scopes (.community k))) : Sound limits d' where
  communityExists k a mem := by
    rw [places.communities]
    exact sound.communityExists k a (grants.mem_members_ended.mp mem).1
  conversationExists k a mem := by
    rw [places.conversations]
    exact sound.conversationExists k a (grants.mem_members_ended.mp mem).1
  opened := by
    rw [places.channels, places.conversations]
    exact sound.opened
  anchored := by
    rw [places.communities, places.conversations]
    intro c stored channel
    obtain ⟨k, community, named, same⟩ := sound.anchored c stored channel
    refine ⟨k, community, named, Finset.ext fun a => ?_⟩
    rw [grants.mem_members_ended, grants.mem_members_ended, same, together c stored _ channel named]
  joined a := (card_joined_le fun sc mem => (grants.mem_members_ended.mp mem).1).trans (sound.joined a)
  members sc := by
    refine (Finset.card_le_card fun a mem => ?_).trans (sound.members sc)
    exact (grants.mem_members_ended.mp mem).1

/-- A new role for someone who is a member wherever it is set changes no membership. -/
theorem unmoved (places : SamePlaces d d') (grants : Grants d d' target scopes (some role))
    (already : ∀ scope, scopes scope → target ∈ d.members scope) : Sound limits d' := by
  have same (scope : Scope) : d'.members scope = d.members scope := by
    refine Finset.ext fun a => grants.mem_members_set.trans (or_iff_left_of_imp ?_)
    rintro ⟨rfl, here⟩
    exact already scope here
  refine ⟨?_, ?_, ?_, ?_, fun a => ?_, fun sc => same sc ▸ sound.members sc⟩
  · simpa only [same, places.communities] using sound.communityExists
  · simpa only [same, places.conversations] using sound.conversationExists
  · simpa only [places.channels, places.conversations] using sound.opened
  · simpa only [same, places.communities, places.conversations] using sound.anchored
  · exact (card_joined_le fun sc mem => same sc ▸ mem).trans (sound.joined a)

theorem communityFounded (atLeastOne : 1 ≤ limits.conversationMembers)
    {id : CommunityID} {createdBy : AccountID} (fresh : ∀ k ∈ d.communities, k.id ≠ id)
    (communities : ∀ k, k ∈ d'.communities ↔ k ∈ d.communities ∨ k = ⟨id, createdBy⟩)
    (channels : d'.channels = d.channels) (conversations : d'.conversations = d.conversations)
    (roles : Adds d d' fun accountID scope role =>
      accountID = createdBy ∧ scope = .community id ∧ role = .owner) : Sound limits d' := by
  have members {scope : Scope} {a : AccountID} : a ∈ d'.members scope ↔
      a ∈ d.members scope ∨ a = createdBy ∧ scope = .community id := by
    refine roles.mem_members.trans (or_congr_right ?_)
    exact ⟨fun ⟨_, account, scope, _⟩ => ⟨account, scope⟩, fun ⟨account, scope⟩ => ⟨_, account, scope, rfl⟩⟩
  have elsewhere {scope : Scope} (other : scope ≠ .community id) : d'.members scope = d.members scope :=
    Finset.ext fun a => members.trans (or_iff_left fun both => other both.2)
  refine ⟨?_, ?_, ?_, ?_, fun a => ?_, fun sc => ?_⟩
  · intro k a mem
    rcases members.mp mem with old | ⟨-, here⟩
    · obtain ⟨c, stored, named⟩ := sound.communityExists k a old
      exact ⟨c, (communities c).mpr (.inl stored), named⟩
    · exact ⟨_, (communities _).mpr (.inr rfl), (Scope.community.inj here).symm⟩
  · intro k a mem
    rw [elsewhere Scope.noConfusion] at mem
    exact conversations ▸ sound.conversationExists k a mem
  · rw [channels, conversations]
    exact sound.opened
  · intro c stored channel
    obtain ⟨k, community, named, same⟩ := sound.anchored c (conversations ▸ stored) channel
    refine ⟨k, (communities k).mpr (.inl community), named, ?_⟩
    rw [elsewhere Scope.noConfusion, elsewhere fun same => fresh k community (Scope.community.inj same), same]
  · refine le_trans (Finset.card_le_card fun sc mem => ?_) (sound.joined a)
    obtain ⟨mem, conversation⟩ := mem_joined_iff_members.mp mem
    refine mem_joined_iff_members.mpr ⟨?_, conversation⟩
    rcases members.mp mem with old | ⟨-, rfl⟩
    · exact old
    · cases conversation
  · by_cases here : sc = .community id
    · -- Nobody was in a community that did not exist.
      have only : d'.members sc ⊆ {createdBy} := by
        intro a mem
        rcases members.mp mem with old | ⟨rfl, -⟩
        · obtain ⟨c, stored, named⟩ := sound.communityExists id a (here ▸ old)
          exact absurd named (fresh c stored)
        · exact Finset.mem_singleton_self a
      exact (Finset.card_le_card only).trans (Finset.card_singleton createdBy ▸ atLeastOne)
    · rw [elsewhere here]
      exact sound.members sc

/-- A new conversation whose members are listed: what happens outside it is nothing. -/
theorem opens {row : Conversation} {listed : Finset AccountID}
    (fresh : ∀ c ∈ d.conversations, c.id ≠ row.id)
    (communities : d'.communities = d.communities)
    (conversations : d'.conversations = d.conversations ++ [row])
    (channels : ∀ ch ∈ d'.channels, ch ∈ d.channels ∨ row.channelID = some ch.id)
    (members : ∀ scope a, a ∈ d'.members scope ↔ a ∈ d.members scope ∨ scope = .conversation row.id ∧ a ∈ listed)
    (anchor : row.kind = .communityChannel → ∃ k ∈ d.communities, row.communityID = some k.id ∧
      listed = d.members (.community k.id))
    (fits : listed.card ≤ limits.conversationMembers)
    (room : ∀ a ∈ listed, (d.joined a).card + 1 ≤ limits.conversationsPerAccount) : Sound limits d' := by
  have here : d'.members (.conversation row.id) = listed := by
    refine Finset.ext fun a => (members _ a).trans ⟨?_, fun joins => .inr ⟨rfl, joins⟩⟩
    rintro (old | ⟨-, joins⟩)
    · obtain ⟨c, stored, named⟩ := sound.conversationExists _ a old
      exact absurd named (fresh c stored)
    · exact joins
  have elsewhere {scope : Scope} (other : scope ≠ .conversation row.id) :
      d'.members scope = d.members scope :=
    Finset.ext fun a => (members scope a).trans (or_iff_left fun both => other both.1)
  have stays {c : Conversation} (stored : c ∈ d.conversations) : c ∈ d'.conversations :=
    conversations ▸ List.mem_append_left _ stored
  have added : row ∈ d'.conversations := conversations ▸ List.mem_append_right _ (List.mem_singleton_self row)
  refine ⟨?_, ?_, ?_, ?_, fun a => ?_, fun sc => ?_⟩
  · intro k a mem
    rw [elsewhere Scope.noConfusion] at mem
    exact communities ▸ sound.communityExists k a mem
  · intro k a mem
    by_cases new : k = row.id
    · exact ⟨row, added, new.symm⟩
    · rw [elsewhere fun same => new (Scope.conversation.inj same)] at mem
      obtain ⟨c, stored, named⟩ := sound.conversationExists k a mem
      exact ⟨c, stays stored, named⟩
  · intro ch stored
    rcases channels ch stored with old | named
    · obtain ⟨c, stored, named⟩ := sound.opened ch old
      exact ⟨c, stays stored, named⟩
    · exact ⟨row, added, named⟩
  · rw [communities, conversations]
    intro c stored channel
    rcases List.mem_append.mp stored with old | new
    · obtain ⟨k, community, named, same⟩ := sound.anchored c old channel
      refine ⟨k, community, named, ?_⟩
      rw [elsewhere fun same => fresh c old (Scope.conversation.inj same), elsewhere Scope.noConfusion, same]
    · cases List.mem_singleton.mp new
      obtain ⟨k, community, named, same⟩ := anchor channel
      refine ⟨k, community, named, ?_⟩
      rw [here, elsewhere Scope.noConfusion, same]
  · by_cases joins : a ∈ listed
    · refine (card_joined_le_add [.conversation row.id] fun sc mem => ?_).trans (room a joins)
      exact ((members sc a).mp (mem_joined_iff_members.mp mem).1).imp_right
        fun entered => List.mem_singleton.mpr entered.1
    · refine (card_joined_le fun sc mem => ?_).trans (sound.joined a)
      exact ((members sc a).mp mem).resolve_right fun both => joins both.2
  · by_cases new : sc = .conversation row.id
    · rw [new, here]
      exact fits
    · rw [elsewhere new]
      exact sound.members sc

/-- A member who enters all channels of a community together keeps the directory sound, as far as
there is room. -/
theorem enters (places : SamePlaces d d') (grants : Grants d d' target scopes (some role))
    (together : ∀ c ∈ d.conversations, ∀ k, c.kind = .communityChannel → c.communityID = some k →
      (scopes (.conversation c.id) ↔ scopes (.community k)))
    (community : ∀ k, scopes (.community k) → ∃ c ∈ d.communities, c.id = k)
    (conversation : ∀ k, scopes (.conversation k) → ∃ c ∈ d.conversations, c.id = k)
    (fits : ∀ scope, scopes scope → (d.members scope).card + 1 ≤ limits.conversationMembers)
    (room : (d'.joined target).card ≤ limits.conversationsPerAccount) : Sound limits d' := by
  refine ⟨?_, ?_, ?_, ?_, fun a => ?_, fun sc => ?_⟩
  · intro k a mem
    rw [places.communities]
    rcases grants.mem_members_set.mp mem with old | ⟨-, here⟩
    · exact sound.communityExists k a old
    · exact community k here
  · intro k a mem
    rw [places.conversations]
    rcases grants.mem_members_set.mp mem with old | ⟨-, here⟩
    · exact sound.conversationExists k a old
    · exact conversation k here
  · rw [places.channels, places.conversations]
    exact sound.opened
  · rw [places.communities, places.conversations]
    intro c stored channel
    obtain ⟨k, listed, named, same⟩ := sound.anchored c stored channel
    refine ⟨k, listed, named, Finset.ext fun a => ?_⟩
    rw [grants.mem_members_set, grants.mem_members_set, same, together c stored _ channel named]
  · by_cases isTarget : a = target
    · exact isTarget ▸ room
    · refine (card_joined_le fun sc mem => ?_).trans (sound.joined a)
      exact (grants.mem_members_set.mp mem).resolve_right fun both => isTarget both.1
  · by_cases here : scopes sc
    · refine (card_members_le_succ target fun a mem => ?_).trans (fits sc here)
      exact (grants.mem_members_set.mp mem).imp_right And.left
    · refine (Finset.card_le_card fun a mem => ?_).trans (sound.members sc)
      exact (grants.mem_members_set.mp mem).resolve_right fun both => here both.2

theorem communityManaged (distinct : (d.conversations.map (·.id)).Nodup)
    {communityID : CommunityID} {actor : AccountID} {own : Role}
    (acts : d.roleOf actor (.community communityID) = some own)
    (room : d.roleOf target (.community communityID) = none →
      (d.members (.community communityID)).card + 1 ≤ limits.conversationMembers ∧
      (∀ c ∈ d.channelsOf communityID, (d.members (.conversation c.id)).card + 1 ≤ limits.conversationMembers) ∧
      (d.joined target).card + (d.channelsOf communityID).length ≤ limits.conversationsPerAccount)
    (places : SamePlaces d d')
    (roles : Grants d d' target (fun scope => scope = .community communityID ∨
      ∃ c ∈ d.channelsOf communityID, scope = .conversation c.id) (some role)) :
    Sound limits d' := by
  have channel {c : Conversation} (listed : c ∈ d.channelsOf communityID) :
      d.members (.conversation c.id) = d.members (.community communityID) := by
    obtain ⟨stored, named, kind⟩ := mem_channelsOf.mp listed
    obtain ⟨k, -, community, same⟩ := sound.anchored c stored kind
    cases Option.some.inj (named.symm.trans community)
    exact same
  cases held : d.roleOf target (.community communityID) with
  | some current =>
    have mem : target ∈ d.members (.community communityID) := mem_members.mpr (Option.isSome_of_mem held)
    refine sound.unmoved places roles ?_
    rintro scope (rfl | ⟨c, listed, rfl⟩)
    · exact mem
    · exact channel listed ▸ mem
  | none =>
    obtain ⟨community, conversations, joins⟩ := room held
    refine sound.enters places roles ?_ ?_ ?_ ?_ ?_
    · intro c stored k kind named
      constructor
      · rintro (other | ⟨c', listed, here⟩)
        · cases other
        · obtain ⟨stored', named', -⟩ := mem_channelsOf.mp listed
          cases List.inj_on_of_nodup_map distinct stored stored' (Scope.conversation.inj here)
          exact .inl (congrArg Scope.community (Option.some.inj (named.symm.trans named')))
      · rintro (here | ⟨_, _, other⟩)
        · cases Scope.community.inj here
          exact .inr ⟨c, mem_channelsOf.mpr ⟨stored, named, kind⟩, rfl⟩
        · cases other
    · rintro k (here | ⟨_, _, other⟩)
      · cases Scope.community.inj here
        exact sound.communityExists communityID actor (mem_members.mpr (Option.isSome_of_mem acts))
      · cases other
    · rintro k (other | ⟨c, listed, here⟩)
      · cases other
      · exact ⟨c, (mem_channelsOf.mp listed).1, (Scope.conversation.inj here).symm⟩
    · rintro scope (rfl | ⟨c, listed, rfl⟩)
      · exact community
      · exact conversations c listed
    · -- The account joins at most the channels of the community.
      refine (card_joined_le_add ((d.channelsOf communityID).map fun c => .conversation c.id) ?_).trans
        (by rwa [List.length_map])
      intro scope mem
      obtain ⟨mem, conversation⟩ := mem_joined_iff_members.mp mem
      rcases roles.mem_members_set.mp mem with old | ⟨-, rfl | ⟨c, listed, rfl⟩⟩
      · exact .inl old
      · cases conversation
      · exact .inr (List.mem_map_of_mem listed)

/-- Every move that the interface offers keeps the directory sound. -/
theorem move (distinct : (d.conversations.map (·.id)).Nodup)
    (atLeastOne : 1 ≤ limits.conversationMembers) {call : Call} (offered : Offered s call)
    (move : DirectoryMove limits d call d') : Sound limits d' := by
  cases move with
  | kept => exact sound
  | communityFounded fresh communities channels conversations roles =>
    exact sound.communityFounded atLeastOne fresh communities channels conversations roles
  | channelAdded => exact offered.elim
  | @channelOpened _ channelID conversationID communityID kind createdBy _ mem fits room fresh
      communities channels conversations roles =>
    refine sound.opens fresh communities conversations ?_ ?_ ?_ fits room
    · intro ch stored
      exact ((channels ch).mp stored).imp_right fun same => by rw [same]
    · intro scope a
      refine roles.mem_members.trans (or_congr_right ?_)
      rw [exists_and_left, mem_members, Option.isSome_iff_exists]
    · intro _
      obtain ⟨k, stored, named⟩ := sound.communityExists communityID createdBy (mem_members.mpr mem)
      exact ⟨k, stored, by rw [named], by rw [named]⟩
  | communityManaged acts _ _ room places roles => exact sound.communityManaged distinct acts room places roles
  | @conversationFounded _ id input members _ fits room fresh channel unused communities channels
      conversations roles =>
    have listed (a : AccountID) : a ∈ insert input.createdBy members.toFinset ↔ a = input.createdBy ∨ a ∈ members := by
      rw [Finset.mem_insert, List.mem_toFinset]
    refine sound.opens fresh communities conversations (fun ch stored => .inl (channels ▸ stored)) ?_ ?_ ?_
      fun a joins => room a ((listed a).mp joins)
    · intro scope a
      refine roles.mem_members.trans (or_congr_right ?_)
      rw [exists_and_left, listed, exists_or, exists_and_left, exists_and_left]
      simp
    · -- The channel has its conversation already.
      intro kind
      obtain ⟨ch, stored, named⟩ := channel kind
      obtain ⟨c, conversation, uses⟩ := sound.opened ch stored
      rcases unused c conversation with none | other
      · cases none.symm.trans uses
      · exact absurd (uses.trans named.symm) other
    · have count : (insert input.createdBy members.toFinset).card ≤ 1 + members.length := by
        rw [Nat.add_comm]
        exact (Finset.card_insert_le _ _).trans (Nat.add_le_add_right (List.toFinset_card_le _) 1)
      exact count.trans fits
  | memberAdded => exact offered.elim
  | @conversationManaged _ conversationID actor target role _ c _ acts _ _ stored named room places roles =>
    cases held : d.roleOf target (.conversation conversationID) with
    | some current =>
      refine sound.unmoved places roles ?_
      rintro scope rfl
      exact mem_members.mpr (Option.isSome_of_mem held)
    | none =>
      obtain ⟨joins, fits, joined⟩ := room held
      refine sound.enters places roles ?_ (fun _ other => Scope.noConfusion other) ?_ ?_ ?_
      · intro c' stored' k kind community
        refine iff_of_false (fun here => ?_) Scope.noConfusion
        -- A channel has its community's members already.
        cases List.inj_on_of_nodup_map distinct stored' stored ((Scope.conversation.inj here).trans named.symm)
        obtain ⟨k, belongs, mem⟩ := joins kind
        obtain ⟨k', -, belongs', same⟩ := sound.anchored _ stored kind
        cases Option.some.inj (belongs.symm.trans belongs')
        have missing : target ∉ d.members (.conversation c.id) := by
          rw [mem_members, named, held]
          exact Bool.false_ne_true
        exact missing (same ▸ mem_members.mpr mem)
      · intro k here
        exact ⟨c, stored, named.trans (Scope.conversation.inj here).symm⟩
      · rintro scope rfl
        exact fits
      · refine (card_joined_le_add [.conversation conversationID] fun sc mem => ?_).trans joined
        exact (roles.mem_members_set.mp (mem_joined_iff_members.mp mem).1).imp_right
          fun entered => List.mem_singleton.mpr entered.2
  | @memberRemoved _ conversationID _ _ _ _ c _ _ _ stored named group _ _ places roles =>
    refine sound.ended places roles ?_
    intro c' stored' k kind _
    refine iff_of_false (fun here => ?_) Scope.noConfusion
    cases List.inj_on_of_nodup_map distinct stored' stored ((Scope.conversation.inj here).trans named.symm)
    cases group.symm.trans kind
  | accountDeleted places roles => exact sound.ended places roles fun _ _ _ _ _ => Iff.rfl

end

end Sound
end Directory

theorem directorySound_of_run {limits : Limits} {history : List Entry}
    (run : Run (step limits) Offered Store.init history s)
    (atLeastOne : 1 ≤ limits.conversationMembers) : Directory.Sound limits s.directory := by
  refine run.preserves (fun s => Directory.Sound limits s.directory) ?_ ?_
  · refine ⟨?_, ?_, ?_, ?_, fun a => Nat.zero_le _, fun sc => Nat.zero_le _⟩
    · exact fun _ _ mem => absurd mem (Finset.notMem_empty _)
    · exact fun _ _ mem => absurd mem (Finset.notMem_empty _)
    · exact fun _ stored => absurd stored (Table.not_mem_empty _)
    · exact fun _ stored => absurd stored List.not_mem_nil
  · intro s call answer next offered sound ok
    exact sound.move s.directory_distinct atLeastOne offered (directoryMove_of_step ok)

/-- Over every run of the operations that the interface offers, the limits hold and each channel has
exactly the members of its community. -/
theorem rosters_sound {limits : Limits} {history : List Entry} {s : Store}
    (run : Run (step limits) Offered Store.init history s) (atLeastOne : 1 ≤ limits.conversationMembers) :
    RostersSound limits s := by
  have sound := directorySound_of_run run atLeastOne
  refine ⟨fun a => ?_, fun c _ => ?_, fun k _ => ?_, fun c stored kind => ?_⟩
  · exact s.conversationCount_eq a ▸ sound.joined a
  · exact s.memberCount_eq _ ▸ sound.members _
  · exact s.memberCount_eq _ ▸ sound.members _
  · obtain ⟨k, -, named, same⟩ := sound.anchored c.outline (List.mem_map_of_mem stored) kind
    refine ⟨k.id, named, fun a => ?_⟩
    rw [Store.membership?_isSome, Store.membership?_isSome, ← Directory.mem_members, ← Directory.mem_members]
    exact Finset.ext_iff.mp same a

open Example in
/-- Carol, who entered the community last, is in its channel as well. -/
theorem rosters_sound_town :
    ((exec (step limits) Store.init bobDemoted).membership? carol (.community "town")).isSome ∧
      RostersSound limits (exec (step limits) Store.init bobDemoted) := by
  have allowed : ∀ entry ∈ execHistory (step limits) Store.init bobDemoted, Offered entry.before entry.call := by
    intro entry member
    have listed := call_mem_of_mem_execHistory member
    simp only [bobDemoted, town, List.cons_append, List.nil_append, List.mem_cons, List.not_mem_nil, or_false] at listed
    rcases listed with same | same | same | same | same | same | same | same <;> rw [same] <;> trivial
  exact ⟨by decide +kernel, rosters_sound (Run.start.extend bobDemoted allowed) (by decide)⟩

end Veritra.Storage
