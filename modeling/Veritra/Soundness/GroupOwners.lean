import Veritra.Proofs.Storage.DirectorySteps
import Veritra.Soundness.Confirmations

/-! # Groups keep an owner

The creator of a group is its owner. Nobody outranks an owner, so no one else can demote or remove
one, and the last owner cannot leave. Deleting an account has no such check for the groups of the
account: when it was the only owner of a group, the others stay behind without an owner, and nobody
among them can name one.
-/

namespace Veritra.Storage

open Relational Machine

variable {s : Store}

/-- Every group with members has an owner among them. -/
def GroupsOwned (s : Store) : Prop :=
  ∀ c ∈ s.conversations, c.kind = .group → (∃ m ∈ s.memberships, m.scope = .conversation c.id) →
    ∃ m ∈ s.memberships, m.scope = .conversation c.id ∧ m.role = .owner

/-- Nobody but the account owns the conversation. -/
def Store.noOtherOwner (s : Store) (conversationID : ConversationID) (accountID : AccountID) : Prop :=
  ∀ m ∈ s.memberships, m.scope = .conversation conversationID → m.role = .owner → m.accountID = accountID
  deriving Decidable

/-- The account may be deleted only when each group it alone owns has no other member, and the first
member of a group joins as its owner. No route of the server calls `AddConversationMember`. -/
def KeepsOwners (s : Store) : Call → Prop
  | .deleteAccountData _ accountID =>
    ∀ c ∈ s.conversations, c.kind = .group → s.noOtherOwner c.id accountID →
      ∀ m ∈ s.memberships, m.scope = .conversation c.id → m.accountID = accountID
  | .addConversationMember _ conversationID _ role =>
    (∃ m ∈ s.memberships, m.scope = .conversation conversationID) ∨ role = .owner
  | _ => True

instance (s : Store) (call : Call) : Decidable (KeepsOwners s call) := by
  apply Call.casesOn (motive := fun call => Decidable (KeepsOwners s call)) call
  all_goals intros; unfold KeepsOwners; infer_instance

/-- Nobody outranks an owner. -/
theorem Role.not_owner_of_rank_lt {held own : Role} (below : held.rank < own.rank) : held ≠ .owner := by
  rintro rfl
  revert below
  cases own <;> decide

namespace Directory

variable {c : Conversation} {accountID target : AccountID}

def Owned (d : Directory) : Prop :=
  ∀ c ∈ d.conversations, c.kind = .group → ∀ accountID, (d.roleOf accountID (.conversation c.id)).isSome →
    ∃ owner, d.roleOf owner (.conversation c.id) = some .owner

/-- What `KeepsOwners` asks for, in the terms of the directory. -/
def KeepsOwners (d : Directory) : Call → Prop
  | .deleteAccountData _ accountID =>
    ∀ c ∈ d.conversations, c.kind = .group →
      (∀ owner, d.roleOf owner (.conversation c.id) = some .owner → owner = accountID) →
      ∀ other, (d.roleOf other (.conversation c.id)).isSome → other = accountID
  | .addConversationMember _ conversationID _ role =>
    (∃ accountID, (d.roleOf accountID (.conversation conversationID)).isSome) ∨ role = .owner
  | _ => True

variable {limits : Limits} {d d' : Directory} {call : Call}

/-- New roles elsewhere leave the groups alone. -/
theorem Owned.adds (owned : d.Owned) {new : AccountID → Scope → Role → Prop} (adds : Adds d d' new)
    (elsewhere : ∀ c ∈ d.conversations, c.kind = .group → ∀ a role, ¬ new a (.conversation c.id) role)
    (stored : c ∈ d.conversations) (group : c.kind = .group)
    (mem : (d'.roleOf accountID (.conversation c.id)).isSome) :
    ∃ owner, d'.roleOf owner (.conversation c.id) = some .owner := by
  obtain ⟨role, holds⟩ := Option.isSome_iff_exists.mp mem
  rcases (adds _ _ _).mp holds with known | created
  · obtain ⟨owner, owns⟩ := owned c stored group accountID (Option.isSome_of_mem known)
    exact ⟨owner, (adds _ _ _).mpr (.inl owns)⟩
  · exact absurd created (elsewhere c stored group accountID role)

/-- Changing the roles of one account keeps a group owned when the account's role there is not
touched, or when somebody else owns the group. -/
theorem Owned.grants (owned : d.Owned) {scopes : Scope → Prop} {role : Option Role}
    (places : SamePlaces d d') (grants : Grants d d' target scopes role)
    (touched : ∀ c ∈ d.conversations, c.kind = .group → scopes (.conversation c.id) →
      (∃ accountID, (d'.roleOf accountID (.conversation c.id)).isSome) →
      (∃ owner, owner ≠ target ∧ d.roleOf owner (.conversation c.id) = some .owner) ∨
        role = some .owner) : d'.Owned := by
  intro c stored group accountID mem
  rw [places.conversations] at stored
  by_cases here : scopes (.conversation c.id)
  · rcases touched c stored group here ⟨accountID, mem⟩ with ⟨owner, other, owns⟩ | becomes
    · exact ⟨owner, (grants.2 owner _ fun both => other both.1).trans owns⟩
    · exact ⟨target, (grants.1 _ here).trans becomes⟩
  · have same (a : AccountID) := grants.2 a (.conversation c.id) fun both => here both.2
    simp only [same] at mem ⊢
    exact owned c stored group accountID mem

/-- An owner who is not the target stays one when only the target's role changes. -/
theorem Owned.other_owner (owned : d.Owned) (stored : c ∈ d.conversations) (group : c.kind = .group)
    (mem : (d.roleOf accountID (.conversation c.id)).isSome)
    (below : ∀ held, d.roleOf target (.conversation c.id) = some held → held ≠ .owner) :
    ∃ owner, owner ≠ target ∧ d.roleOf owner (.conversation c.id) = some .owner := by
  obtain ⟨owner, owns⟩ := owned c stored group accountID mem
  refine ⟨owner, ?_, owns⟩
  rintro rfl
  exact below _ owns rfl

theorem Owned.move (owned : d.Owned) (distinct : (d.conversations.map (·.id)).Nodup)
    (allowed : d.KeepsOwners call) (move : DirectoryMove limits d call d') : d'.Owned := by
  have sameRow {c c' : Conversation} (stored : c ∈ d.conversations) (stored' : c' ∈ d.conversations)
      (same : c.id = c'.id) : c = c' := List.inj_on_of_nodup_map distinct stored stored' same
  cases move with
  | kept => exact owned
  | communityFounded _ _ _ conversations roles =>
    intro c stored group accountID mem
    refine owned.adds roles ?_ (conversations ▸ stored) group mem
    rintro _ - - _ _ ⟨-, other, -⟩
    cases other
  | channelAdded memberships _ conversations =>
    intro c stored group accountID mem
    unfold roleOf at mem ⊢
    rw [memberships] at mem ⊢
    exact owned c (conversations ▸ stored) group accountID mem
  | channelOpened _ _ _ fresh _ _ conversations roles =>
    intro c stored group accountID mem
    rw [conversations, List.mem_append, List.mem_singleton] at stored
    rcases stored with old | rfl
    · refine owned.adds roles ?_ old group mem
      rintro c stored - _ _ ⟨here, -⟩
      exact fresh c stored (Scope.conversation.inj here)
    · cases group
  | communityManaged _ _ _ _ places roles =>
    refine owned.grants places roles ?_
    rintro c stored group (other | ⟨channel, listed, here⟩) -
    · cases other
    · obtain ⟨stored', -, kind⟩ := mem_channelsOf.mp listed
      rw [sameRow stored stored' (Scope.conversation.inj here), kind] at group
      cases group
  | @conversationFounded _ _ input members _ _ _ fresh _ _ _ _ conversations roles =>
    intro c stored group accountID mem
    rw [conversations, List.mem_append, List.mem_singleton] at stored
    rcases stored with old | rfl
    · refine owned.adds roles ?_ old group mem
      rintro c stored - _ _ ⟨here, -⟩
      exact fresh c stored (Scope.conversation.inj here)
    · exact ⟨input.createdBy, (roles _ _ _).mpr (.inr ⟨rfl, .inl ⟨rfl, rfl⟩⟩)⟩
  | @memberAdded _ conversationID target role _ known places roles =>
    refine owned.grants places roles ?_
    rintro c stored group here -
    by_cases others : ∃ accountID, (d.roleOf accountID (.conversation conversationID)).isSome
    · obtain ⟨accountID, mem⟩ := others
      rw [← here] at mem ⊢
      obtain ⟨owner, owns⟩ := owned c stored group accountID mem
      by_cases isTarget : owner = target
      · exact .inr (by rw [← isTarget, owns]; rfl)
      · exact .inl ⟨owner, isTarget, owns⟩
    · have owner := allowed.resolve_left others
      have missing : d.roleOf target (.conversation conversationID) = none := by
        by_contra held
        exact others ⟨target, Option.isSome_iff_ne_none.mpr held⟩
      exact .inr (by rw [missing, owner]; rfl)
  | @conversationManaged _ conversationID actor target _ own _ _ acts _ below _ _ _ places roles =>
    refine owned.grants places roles ?_
    rintro c stored group here -
    rw [← here] at acts below
    refine .inl (owned.other_owner stored group (Option.isSome_of_mem acts) ?_)
    exact fun held holds => Role.not_owner_of_rank_lt (below held holds)
  | @memberRemoved _ conversationID actor target _ held _ _ acts holds _ _ _ left below places roles =>
    refine owned.grants places roles ?_
    rintro c stored group here -
    rw [← here] at acts holds left
    by_cases leaves : actor = target ∧ held = .owner
    · exact .inl (left leaves.1 leaves.2)
    · refine .inl (owned.other_owner stored group (Option.isSome_of_mem acts) fun role holds' owner => ?_)
      cases holds.symm.trans holds'
      by_cases own : actor = target
      · exact leaves ⟨own, owner⟩
      · exact Role.not_owner_of_rank_lt (below own) owner
  | @accountDeleted _ accountID _ places roles =>
    refine owned.grants places roles ?_
    rintro c stored group - ⟨other, mem⟩
    -- Whoever is left was a member before, so the account was not the only owner.
    have isOther : other ≠ accountID := by
      rintro rfl
      rw [roles.1 _ trivial] at mem
      cases mem
    rw [roles.2 _ _ fun both => isOther both.1] at mem
    refine .inl ?_
    by_contra none
    refine isOther (allowed c stored group (fun owner owns => ?_) other mem)
    by_contra another
    exact none ⟨owner, another, owns⟩

end Directory

theorem Store.directory_keepsOwners {call : Call} (allowed : KeepsOwners s call) :
    s.directory.KeepsOwners call := by
  cases call
  case deleteAccountData now accountID =>
    intro c listed group alone other mem
    obtain ⟨stored, member', rfl⟩ := List.mem_map.mp listed
    obtain ⟨role, holds⟩ := Option.isSome_iff_exists.mp mem
    obtain ⟨m, row, rfl, scope, -⟩ := Directory.roleOf_eq_some.mp holds
    refine allowed stored member' group (fun owner ownerRow ownerScope owns => ?_) m row scope
    exact alone _ (Directory.roleOf_eq_some.mpr ⟨owner, ownerRow, rfl, ownerScope, owns⟩)
  case addConversationMember now conversationID accountID role =>
    refine allowed.imp_left ?_
    rintro ⟨m, row, scope⟩
    exact ⟨m.accountID, Option.isSome_iff_exists.mpr
      ⟨m.role, Directory.roleOf_eq_some.mpr ⟨m, row, rfl, scope, rfl⟩⟩⟩
  all_goals trivial

theorem groupsOwned_of_owned (owned : s.directory.Owned) : GroupsOwned s := by
  rintro c stored group ⟨m, row, scope⟩
  have holds : s.directory.roleOf m.accountID (.conversation c.id) = some m.role :=
    Directory.roleOf_eq_some.mpr ⟨m, row, rfl, scope, rfl⟩
  obtain ⟨owner, owns⟩ := owned c.outline (List.mem_map_of_mem stored) group m.accountID
    (Option.isSome_of_mem holds)
  obtain ⟨row, mem, -, scope, role⟩ := Directory.roleOf_eq_some.mp owns
  exact ⟨row, mem, scope, role⟩

/-- In every run that deletes no account which alone owns a group with other members, every group
with members has an owner. -/
theorem groups_keep_owner {limits : Limits} {history : List Entry} {s : Store}
    (run : Run (step limits) KeepsOwners Store.init history s) : GroupsOwned s := by
  refine groupsOwned_of_owned (run.preserves (fun s => s.directory.Owned) ?_ ?_)
  · exact fun c stored => absurd stored List.not_mem_nil
  · intro s call answer next allowed owned ok
    exact owned.move s.directory_distinct (Store.directory_keepsOwners allowed)
      (directoryMove_of_step ok)

namespace Example

/-- Bob's group with Carol, on an instance that Alice runs. -/
def bobsGroup : List Call :=
  [.registerAccount 0 alice .owner "alice-phone",
    .registerAccount 0 bob .member "bob-phone",
    .registerAccount 0 carol .member "carol-phone",
    .createOrGetConversation 1 "room" ⟨.group, none, none, none, bob, none, [carol]⟩]

/-- Bob makes Carol an owner before deleting the account. -/
def bobHandsOver : List Call :=
  bobsGroup ++ [.manageConversationMember 2 "room" bob carol .owner, .deleteAccountData 3 bob]

/-- Bob deletes the account without naming another owner. -/
def bobGone : List Call := bobsGroup ++ [.deleteAccountData 2 bob]

end Example

open Example in
theorem groups_keep_owner_carol :
    (∃ m ∈ (exec (step limits) Store.init bobHandsOver).memberships, m.scope = .conversation "room") ∧
      GroupsOwned (exec (step limits) Store.init bobHandsOver) := by
  have allowed : ∀ entry ∈ execHistory (step limits) Store.init bobHandsOver,
      KeepsOwners entry.before entry.call := by decide +kernel
  exact ⟨by decide +kernel, groups_keep_owner (Run.start.extend bobHandsOver allowed)⟩

open Example in
/-- Carol is left in a group without an owner, and cannot become one. -/
theorem group_left_without_owner :
    ∃ history s, ServerRun limits history s ∧ ¬ GroupsOwned s ∧
      (∃ m ∈ s.memberships, m.scope = .conversation "room" ∧ m.accountID = carol) ∧
      (serve (step limits) s (.manageConversationMember 3 "room" carol carol .owner)).answer = .error .forbidden := by
  refine ⟨_, _, run_exec (step limits) Store.init bobGone, ?_⟩
  unfold GroupsOwned
  decide +kernel

end Veritra.Storage
