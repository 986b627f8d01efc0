import Veritra.Soundness.GroupOwners

/-! # Acting on another member's role

A manager acts on another account with the rank it holds where it acts. `ManageConversationMember`
and `RemoveConversationMember` compare the ranks held in the conversation that they change.
`ManageCommunityMember` compares the ranks held in the community and then writes the role into every
channel of it, where both accounts may meanwhile hold other ranks. It escalates no role exactly when the
ranks held in the channels allow what it writes there.
-/

namespace Veritra.Storage

open Relational Machine

/-- The rank of the account there, zero when it is no member. -/
def Store.rankIn (s : Store) (accountID : AccountID) (scope : Scope) : ℕ :=
  ((s.membership? accountID scope).map (·.role.rank)).getD 0

/-- In every conversation, a role that is new is not above the actor's rank there, and a role that
changed or ended was below it. -/
structure NoEscalation (s s' : Store) (actor : AccountID) : Prop where
  gives : ∀ accountID conversationID role,
    s'.directory.roleOf accountID (.conversation conversationID) = some role →
    s.directory.roleOf accountID (.conversation conversationID) ≠ some role →
    role.rank ≤ s.rankIn actor (.conversation conversationID)
  outranks : ∀ accountID conversationID role,
    s.directory.roleOf accountID (.conversation conversationID) = some role →
    s'.directory.roleOf accountID (.conversation conversationID) ≠ some role →
    role.rank < s.rankIn actor (.conversation conversationID)

/-- In every channel of the community in which the target does not have the role already, the actor's rank is
at least that of the role, and above the target's. -/
def RanksAllow (s : Store) : Call → Prop
  | .manageCommunityMember _ communityID actor target role =>
    ∀ c ∈ s.communityConversations communityID, s.directory.roleOf target (.conversation c.id) ≠ some role →
      role.rank ≤ s.rankIn actor (.conversation c.id) ∧
        s.rankIn target (.conversation c.id) < s.rankIn actor (.conversation c.id)
  | _ => True

instance (s : Store) (call : Call) : Decidable (RanksAllow s call) := by
  apply Call.casesOn (motive := fun call => Decidable (RanksAllow s call)) call
  all_goals intros; unfold RanksAllow; infer_instance

theorem Role.rank_pos (role : Role) : 0 < role.rank := by
  cases role <;> decide

namespace Store

variable {s : Store} {accountID : AccountID} {scope : Scope}

theorem rankIn_of_role {role : Role} (holds : s.directory.roleOf accountID scope = some role) :
    s.rankIn accountID scope = role.rank := by
  obtain ⟨m, found, rfl⟩ := Option.map_eq_some_iff.mp holds
  have mem : s.membership? accountID scope = some m := found
  rw [rankIn, mem]
  rfl

theorem rankIn_of_missing (missing : s.directory.roleOf accountID scope = none) :
    s.rankIn accountID scope = 0 := by
  have mem : s.membership? accountID scope = none := Option.map_eq_none_iff.mp missing
  rw [rankIn, mem]
  rfl

theorem rankIn_lt {rank : ℕ} (positive : 0 < rank)
    (below : ∀ held, s.directory.roleOf accountID scope = some held → held.rank < rank) :
    s.rankIn accountID scope < rank := by
  cases holds : s.directory.roleOf accountID scope with
  | some held => exact rankIn_of_role holds ▸ below held holds
  | none => exact rankIn_of_missing holds ▸ positive

end Store

open Store

/-- A change of one account's roles escalates none exactly when in each conversation where it changes something
the actor's rank is at least the given one and above the one that was held. -/
theorem noEscalation_iff {s s' : Store} {actor target : AccountID} {scopes : Scope → Prop}
    {role : Option Role} (grants : s.directory.Grants s'.directory target scopes role) :
    NoEscalation s s' actor ↔ ∀ c, scopes (.conversation c) →
      s.directory.roleOf target (.conversation c) ≠ role →
      (∀ given, role = some given → given.rank ≤ s.rankIn actor (.conversation c)) ∧
        ∀ held, s.directory.roleOf target (.conversation c) = some held →
          held.rank < s.rankIn actor (.conversation c) := by
  constructor
  · intro safe c here changes
    have granted := grants.1 _ here
    refine ⟨fun given same => ?_, fun held holds => ?_⟩
    · exact safe.gives target c given (granted.trans same) (same ▸ changes)
    · exact safe.outranks target c held holds fun stays => changes (holds.trans (stays.symm.trans granted))
  · intro allowed
    -- A role that is not what it was is the target's, in one of the scopes.
    have touched {accountID : AccountID} {c : ConversationID}
        (changed : s'.directory.roleOf accountID (.conversation c) ≠ s.directory.roleOf accountID (.conversation c)) :
        accountID = target ∧ scopes (.conversation c) := by
      by_contra elsewhere
      exact changed (grants.2 accountID _ elsewhere)
    constructor
    · intro accountID c given holds new
      obtain ⟨rfl, here⟩ := touched fun same => new (same ▸ holds)
      have granted := (grants.1 _ here).symm.trans holds
      exact (allowed c here (granted ▸ new)).1 given granted
    · intro accountID c held holds changed
      obtain ⟨rfl, here⟩ := touched fun same => changed (same.trans holds)
      exact (allowed c here fun same => changed ((grants.1 _ here).trans (same.symm.trans holds))).2 held holds

/-- The conversations that a change in the community reaches are its channels. -/
theorem forall_channel {s : Store} {communityID : CommunityID} {P : ConversationID → Prop} :
    (∀ c, (Scope.conversation c = .community communityID ∨
      ∃ c' ∈ s.directory.channelsOf communityID, Scope.conversation c = .conversation c'.id) → P c) ↔
    ∀ c ∈ s.communityConversations communityID, P c.id := by
  simp only [reduceCtorEq, false_or, communityConversations_outlines, List.mem_map, Scope.conversation.injEq]
  constructor
  · exact fun all c mem => all c.id ⟨_, ⟨c, mem, rfl⟩, rfl⟩
  · rintro all _ ⟨_, ⟨c, mem, rfl⟩, rfl⟩
    exact all c mem

/-- A committed call on another account escalates no role exactly when the ranks in the channels that it writes
allow it. In a single conversation they always do. -/
theorem roles_not_escalated {limits : Limits} {s s' : Store} {call : Call} {given : Answer}
    {actor target : AccountID} (acts : call.actsOn = some (actor, target)) (other : actor ≠ target)
    (committed : step limits s call = .ok (given, s')) :
    NoEscalation s s' actor ↔ RanksAllow s call := by
  have move := directoryMove_of_step committed
  generalize unchanged : s'.directory = d' at move
  cases move with
  | kept passive => cases passive.symm.trans acts
  | @communityManaged now communityID _ _ role own d' acting within below room places roles =>
    cases acts
    cases unchanged
    rw [noEscalation_iff roles, forall_channel]
    refine forall₂_congr fun c _ => imp_congr_right fun _ => ?_
    constructor
    · rintro ⟨gives, outranks⟩
      have enough := gives role rfl
      exact ⟨enough, rankIn_lt (role.rank_pos.trans_le enough) outranks⟩
    · rintro ⟨enough, above⟩
      refine ⟨?_, fun held holds => rankIn_of_role holds ▸ above⟩
      rintro _ ⟨⟩
      exact enough
  | conversationManaged acting within below _ _ _ _ roles =>
    cases acts
    cases unchanged
    refine iff_of_true ((noEscalation_iff roles).mpr fun c here _ => ?_) trivial
    rw [here, rankIn_of_role acting]
    refine ⟨?_, below⟩
    rintro _ ⟨⟩
    exact within
  | memberRemoved acting holds _ _ _ _ below _ roles =>
    cases acts
    cases unchanged
    refine iff_of_true ((noEscalation_iff roles).mpr fun c here _ => ?_) trivial
    rw [here, rankIn_of_role acting]
    refine ⟨nofun, fun role held => ?_⟩
    cases holds.symm.trans held
    exact below other
  | communityFounded | channelAdded | channelOpened | conversationFounded | memberAdded
  | accountDeleted => cases acts

namespace Example

/-- Alice's community with a channel, Bob as its admin and Carol as a member. -/
def town : List Call :=
  [.registerAccount 0 alice .owner "alice-phone",
    .registerAccount 0 bob .member "bob-phone",
    .registerAccount 0 carol .member "carol-phone",
    .createCommunity 1 "town" alice,
    .createChannelWithConversation 2 "lobby" "lobby-room" "town" .private alice,
    .manageCommunityMember 3 "town" alice bob .admin,
    .manageCommunityMember 4 "town" alice carol .member]

/-- Alice takes Bob's rank away in the channel. -/
def bobDemoted : List Call :=
  town ++ [.manageConversationMember 5 "lobby-room" alice bob .member]

/-- Bob makes Carol an admin of the community. -/
def bobPromotesCarol : Call := .manageCommunityMember 6 "town" bob carol .admin

end Example

open Example in
theorem roles_not_escalated_town :
    (serve (step limits) (exec (step limits) Store.init town) bobPromotesCarol).answer.isOk ∧
      NoEscalation (exec (step limits) Store.init town)
        (serve (step limits) (exec (step limits) Store.init town) bobPromotesCarol).after bob := by
  have accepted : (serve (step limits) (exec (step limits) Store.init town) bobPromotesCarol).answer.isOk := by
    decide +kernel
  obtain ⟨answer, answered⟩ := Served.exists_answer accepted
  have acts : bobPromotesCarol.actsOn = some (bob, carol) := rfl
  refine ⟨accepted, (roles_not_escalated acts (by decide) (ok_of_serve answered)).mpr ?_⟩
  decide +kernel

open Example in
/-- In the channel Bob is a member like Carol, and makes Carol an admin there. -/
theorem admin_made_by_member :
    ∃ history s, ServerRun limits history s ∧
      (serve (step limits) s bobPromotesCarol).answer.isOk ∧
      s.directory.roleOf bob (.conversation "lobby-room") = some .member ∧
      ¬ NoEscalation s (serve (step limits) s bobPromotesCarol).after bob := by
  refine ⟨_, _, run_exec (step limits) Store.init bobDemoted, by decide +kernel, by decide +kernel, ?_⟩
  intro escalates
  have above := escalates.gives carol "lobby-room" .admin (by decide +kernel) (by decide +kernel)
  revert above
  decide +kernel

end Veritra.Storage
