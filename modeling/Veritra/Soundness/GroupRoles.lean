import Veritra.Machine.Run
import Veritra.Proofs.Governance.Invariants

/-! # Group roles over whole runs

A run starts with the creator alone and goes on by accepted commits of members. In every state it reaches the
role state is well formed, and no commit raises anybody above what its committer may give.
-/

namespace Veritra.Governance

open Machine GovernanceState

variable {Account : Type} [LinearOrder Account]

/-- The commits of a group, in epoch order, from its creation on. -/
abbrev GroupRun (creator : Account) :=
  Run (@processCommit Account _) byMember (GroupView.genesis creator)

theorem wellFormed_genesis (creator : Account) :
    WellFormed (GovernanceState.genesis creator) {creator} {creator} where
  owner := ⟨creator, rfl, Finmap.notMem_empty, Finset.notMem_empty creator, Finset.notMem_empty creator⟩
  disjoint := fun moderator mem => absurd mem (Finset.notMem_empty moderator)
  electors := fun elector mem => absurd mem (Finset.notMem_empty elector)
  admins := fun _ mem => absurd mem Finmap.notMem_empty
  moderators := fun moderator mem => absurd mem (Finset.notMem_empty moderator)
  joined := fun account => (Finmap.mem_singleton account creator 0).trans Finset.mem_singleton.symm
  ownerRev := Nat.le_refl 0
  seniority := fun admin since found => absurd found (Finmap.lookup_empty admin ▸ nofun)
  joinedRev := fun mem stamp found => by
    have there := (Finmap.mem_singleton mem creator 0).mp (Finmap.mem_of_lookup_eq_some found)
    subst there
    exact (Option.some.inj (found.symm.trans Finmap.lookup_singleton_eq)).le
  channels := ⟨Nat.zero_le _, Finset.notMem_empty ""⟩
  election := nofun

theorem wellFormed_of_run {creator : Account} {group : GroupView Account}
    {history : List (Served (GroupView Account) (Commit Account) GovernanceReject Unit)}
    (run : GroupRun creator history group) : WellFormed group.state group.roster group.roster := by
  refine run.preserves (fun group => WellFormed group.state group.roster group.roster) (wellFormed_genesis creator) ?_
  intro group commit answer later _ sound processed
  obtain ⟨accepted, rfl⟩ := processCommit_ok.mp processed
  exact wellFormed_commit sound accepted

/-- In every reachable state the owner is set and holds no other role, the roles do not overlap, the accounts are in
the roster, the join table covers exactly the roster, no stamp is ahead of the revision, and an open election is
alive, undecided and without the owner. -/
theorem roles_well_formed {creator : Account} {group : GroupView Account}
    {history : List (Served (GroupView Account) (Commit Account) GovernanceReject Unit)}
    (run : GroupRun creator history group) : WellFormed group.state group.roster group.roster :=
  wellFormed_of_run run

namespace Example

/-- Account 1 creates a group and adds three members. It makes two of them electors and the third a moderator. -/
def added : Commit ℕ :=
  ⟨1, { GovernanceState.genesis 1 with rev := 1, joined := (Finmap.singleton 1 0).insertAll {2, 3, 4} 1 }, {1, 2, 3, 4}⟩

def appointed : Commit ℕ :=
  ⟨1, { added.next with
    rev := 2, ownerRev := 2, admins := (∅ : Stamps ℕ).insertAll {2, 3} 2, electors := {2, 3}, moderators := {4} },
    added.roster⟩

/-- While the owner is silent, one elector opens an election and the other votes for it. -/
def opened : Commit ℕ :=
  ⟨2, { appointed.next with rev := 3, election := some ⟨3, {2, 3}, ∅⟩ }, added.roster⟩

def voted : Commit ℕ :=
  ⟨3, { opened.next with rev := 4, election := some ⟨3, {2, 3}, Finmap.singleton 3 2⟩ }, added.roster⟩

/-- Its own vote decides. -/
def won : Commit ℕ :=
  ⟨2, { voted.next with
    rev := 5, owner := some 2, ownerRev := 5, election := none, electors := {3}
    admins := (Finmap.singleton 3 2).insert 1 5 }, added.roster⟩

/-- The group after the vote. -/
def campaign : List (Commit ℕ) := [added, appointed, opened, voted]

def contested : GroupView ℕ := exec processCommit (GroupView.genesis 1) campaign

theorem contested_run : GroupRun 1 (execHistory processCommit (GroupView.genesis 1) campaign) contested :=
  Run.start.extend campaign (by decide +kernel)

end Example

open Example in
theorem roles_well_formed_contested :
    contested.state.election.isSome ∧ WellFormed contested.state contested.roster contested.roster :=
  ⟨by decide +kernel, roles_well_formed contested_run⟩

section Escalation

variable {prev next : GovernanceState Account} {actor account : Account} {before after members : Finset Account}

/-- The role of the account may change as it does. -/
inductive RoleMove (prev next : GovernanceState Account) (committer account : Account) : Prop
  | steppedDown (own : account = committer) (lower : next.rankOf account < prev.rankOf account)
  | given (above : prev.rankOf account < prev.rankOf committer) (within : next.rankOf account ≤ prev.rankOf committer)
  | handover (changed : next.owner ≠ prev.owner) (party : prev.owner = some account ∨ next.owner = some account)

theorem roleOf_congr {state other : GovernanceState Account} (owner : other.owner = some account ↔ state.owner = some account)
    (admins : account ∈ other.admins ↔ account ∈ state.admins)
    (moderators : account ∈ other.moderators ↔ account ∈ state.moderators) :
    other.roleOf account = state.roleOf account := by
  unfold roleOf
  simp only [owner, admins, moderators]

/-- A win moves only the old and the new owner. -/
theorem mem_adminsAfterWin {winner : Account} {rev : ℕ} (apart : account ≠ winner)
    (other : prev.owner ≠ some account) :
    account ∈ adminsAfterWin prev members winner rev ↔ account ∈ prev.admins := by
  have erased : account ∈ prev.admins.erase winner ↔ account ∈ prev.admins := by
    rw [Finmap.mem_erase]
    exact and_iff_right apart
  unfold adminsAfterWin
  split
  · next old owns =>
    split
    · rw [Finmap.mem_insert, erased]
      exact or_iff_right fun same => other (same ▸ owns)
    · exact erased
  · exact erased

theorem roleMove_of_roleReject (allowed : roleReject prev next actor account = none)
    (changed : next.roleOf account ≠ prev.roleOf account) : RoleMove prev next actor account := by
  unfold roleReject at allowed
  dsimp only at allowed
  split at allowed
  · next same => exact absurd same.symm changed
  split at allowed
  · next heir => exact .handover heir.1 (.inr heir.2)
  split at allowed
  · next own =>
    split at allowed
    · next lower => exact .steppedDown own lower
    · cases allowed
  split at allowed
  · cases allowed
  split at allowed
  · cases allowed
  · next within => exact .given (Nat.lt_of_not_le fun low => within (.inl low)) (Nat.le_of_not_lt fun high => within (.inr high))

theorem Transition.roleMove {added : Finset Account} {handover : Bool}
    (change : Transition prev next actor members added handover)
    (changed : next.roleOf account ≠ prev.roleOf account) : RoleMove prev next actor account := by
  by_cases party : next.owner ≠ prev.owner ∧ (prev.owner = some account ∨ next.owner = some account)
  · exact .handover party.1 party.2
  have bystander : next.owner = some account ↔ prev.owner = some account := by
    by_cases same : next.owner = prev.owner
    · rw [same]
    · exact ⟨fun owns => absurd ⟨same, .inr owns⟩ party, fun owns => absurd ⟨same, .inl owns⟩ party⟩
  cases handover with
  | true =>
    cases change.ownership with
    | won poll winner other moved was closed owner own mandate admins electors moderators posting =>
      have apart : account ≠ winner := fun same => party ⟨moved, .inr (same ▸ owner)⟩
      have old : prev.owner ≠ some account := fun owns => party ⟨moved, .inl owns⟩
      refine absurd (roleOf_congr bystander ?_ ?_) changed
      · rw [admins]
        exact mem_adminsAfterWin apart old
      · rw [moderators, Finset.mem_sdiff, Finset.mem_singleton]
        exact and_iff_left apart
  | false =>
    by_cases listed : account ∈ prev.owner.toFinset ∪ prev.named ∪ next.named
    · exact roleMove_of_roleReject (change.roles rfl account listed) changed
    · -- An account that neither state names is a member in both.
      simp only [Finset.mem_union, Option.mem_toFinset, GovernanceState.named, Finmap.mem_keys, not_or] at listed
      obtain ⟨⟨_, admin, moderator⟩, admin', moderator'⟩ := listed
      exact absurd (roleOf_congr bystander (iff_of_false admin' admin) (iff_of_false moderator' moderator)) changed

/-- The required record is the pruned state, with new join stamps and perhaps without the election. -/
structure Bare (prev next : GovernanceState Account) (before after : Finset Account) : Prop where
  owner : next.owner = prev.owner
  ownerRev : next.ownerRev = prev.ownerRev
  posting : samePosting prev next
  admins : next.admins = (baseOf prev before after).admins
  electors : next.electors = (baseOf prev before after).electors
  roles : ∀ account, next.roleOf account = (baseOf prev before after).roleOf account
  election : ∀ poll, next.election = some poll → (baseOf prev before after).election = some poll

theorem bare_record (prev : GovernanceState Account) (committer : Account) (before after : Finset Account) :
    Bare prev (required prev committer before after).record before after := by
  rw [required_record]
  split
  · refine ⟨baseOf_owner, baseOf_ownerRev, baseOf_posting, rfl, rfl, fun _ => rfl, fun poll isOpen => ?_⟩
    split at isOpen
    · cases isOpen
    · exact isOpen
  · exact ⟨baseOf_owner, baseOf_ownerRev, baseOf_posting, rfl, rfl, fun _ => rfl, fun _ => id⟩

variable (accepted : validateCommit prev next actor before after = .ok ())

include accepted in
/-- An accepted commit carries a bare record or a valid change. -/
theorem bare_or_change : Bare prev next before after ∨
      ∃ handover, Transition (baseOf prev before after) next actor after (after \ before) handover := by
  rcases validateCommit_ok.mp accepted with same | ⟨-, -, change⟩
  · exact .inl (same ▸ bare_record prev actor before after)
  · exact .inr change

/-- A committer in the roster after its commit has its old rank when the change is checked. -/
theorem rankOf_baseOf (present : actor ∈ after) : (baseOf prev before after).rankOf actor = prev.rankOf actor :=
  congrArg BuiltInRole.rank (roleOf_baseOf fun gone => gone.2 present)

theorem RoleMove.of_base (move : RoleMove (baseOf prev before after) next actor account) (stays : account ∈ after)
    (present : actor ∈ after) : RoleMove prev next actor account := by
  cases move with
  | steppedDown own lower =>
    rw [rankOf_baseOf stays] at lower
    exact .steppedDown own lower
  | given above within =>
    rw [rankOf_baseOf stays, rankOf_baseOf present] at above
    rw [rankOf_baseOf present] at within
    exact .given above within
  | handover changed party =>
    rw [baseOf_owner] at changed party
    exact .handover changed party

include accepted in
/-- Only the owner's commit names an elector. -/
theorem elector_gained {elector : Account}
    (mem : elector ∈ next.electors) (new : elector ∉ prev.electors) : prev.owner = some actor := by
  have pruned : elector ∉ (baseOf prev before after).electors := fun kept => new (mem_baseOf_electors.mp kept).1
  rcases bare_or_change accepted with bare | ⟨handover, change⟩
  · exact absurd (bare.electors ▸ mem) pruned
  · exact baseOf_owner.symm.trans (change.electors.gained elector (Finset.mem_sdiff.mpr ⟨mem, pruned⟩)).1

include accepted in
/-- The owner's last decision moves by the owner's own change or by a handover, and then to the new revision. -/
theorem ownerRev_moved (moved : next.ownerRev ≠ prev.ownerRev) :
    next.ownerRev = next.rev ∧ next.rev = prev.rev + 1 ∧
      (prev.owner = some actor ∧ ownChange (required prev actor before after).base next ∨
        prev.owner ≠ some actor ∧ next.owner ≠ prev.owner) := by
  rcases bare_or_change accepted with bare | ⟨handover, change⟩
  · exact absurd bare.ownerRev moved
  · have decided := change.ownerRev
    unfold expectedOwnerRev at decided
    rw [required_base]
    split at decided
    · next reason =>
      refine ⟨decided, change.rev.trans (congrArg (· + 1) baseOf_rev), ?_⟩
      rcases reason with won | own
      · subst won
        cases change.ownership with
        | won poll winner other moved =>
          exact .inr ⟨fun own => other (baseOf_owner.trans own), fun same => moved (same.trans baseOf_owner.symm)⟩
      · exact .inl ⟨baseOf_owner.symm.trans own.1, own.2⟩
    · exact absurd (decided.trans baseOf_ownerRev) moved

end Escalation

/-- No accepted commit escalates. A role changes only downwards by its holder, by somebody above both the old and,
at least as high, the new one, or with the ownership. Electors are named by the owner, posting is restricted by admins
and the owner, and the owner's last decision moves only by the owner's own change or a handover, to the new revision. -/
theorem no_role_escalation {creator : Account} {group later : GroupView Account} {commit : Commit Account}
    {history : List (Served (GroupView Account) (Commit Account) GovernanceReject Unit)} {answer : Unit}
    (_ : GroupRun creator history group) (processed : processCommit group commit = .ok (answer, later)) :
    (∀ account, account ∈ group.roster → account ∈ later.roster →
        later.state.roleOf account ≠ group.state.roleOf account →
        RoleMove group.state later.state commit.committer account) ∧
      (∀ elector ∈ later.state.electors, elector ∉ group.state.electors → group.state.owner = some commit.committer) ∧
      (¬ samePosting group.state later.state → BuiltInRole.admin.rank ≤ group.state.rankOf commit.committer) ∧
      (later.state.ownerRev ≠ group.state.ownerRev →
        later.state.ownerRev = later.state.rev ∧ later.state.rev = group.state.rev + 1 ∧
        (group.state.owner = some commit.committer ∧
            ownChange (required group.state commit.committer group.roster commit.roster).base later.state ∨
          group.state.owner ≠ some commit.committer ∧ later.state.owner ≠ group.state.owner)) := by
  obtain ⟨accepted, rfl⟩ := processCommit_ok.mp processed
  refine ⟨fun account _ stays changed => ?_, fun _ => elector_gained accepted, fun moved => ?_, ownerRev_moved accepted⟩
  · have role : (baseOf group.state group.roster commit.roster).roleOf account = group.state.roleOf account :=
      roleOf_baseOf fun gone => gone.2 stays
    rcases bare_or_change accepted with bare | ⟨handover, change⟩
    · exact absurd ((bare.roles account).trans role) changed
    · exact (change.roleMove (role ▸ changed)).of_base stays change.present
  · rcases bare_or_change accepted with bare | ⟨handover, change⟩
    · exact absurd bare.posting moved
    · rw [← rankOf_baseOf change.present]
      refine change.posting.resolve_left fun same => moved ?_
      exact ⟨same.1.trans baseOf_posting.1, same.2.trans baseOf_posting.2⟩

open Example in
theorem no_role_escalation_won :
    ∃ later, processCommit contested won = .ok ((), later) ∧ later.state.roleOf 2 ≠ contested.state.roleOf 2 ∧
      RoleMove contested.state later.state 2 2 := by
  have processed : processCommit contested won = .ok ((), ⟨won.next, won.roster⟩) := by decide +kernel
  have changed : won.next.roleOf 2 ≠ contested.state.roleOf 2 := by decide +kernel
  refine ⟨_, processed, changed, ?_⟩
  exact (no_role_escalation contested_run processed).1 2 (by decide +kernel) (by decide +kernel) changed

end Veritra.Governance
