import Veritra.Model.Governance.Rules

/-! # What an accepted commit is

`validateCommit` accepts the required record and the valid changes. The pruning of a roster change has a closed
form, and a valid change is a list of conditions: acceptance is the same as meeting them.
-/

namespace Veritra.Governance

open Machine GovernanceState

variable {Account : Type} [LinearOrder Account]

/-- The state without these accounts, apart from the owner. -/
def prune (state : GovernanceState Account) (gone : Multiset Account) : GovernanceState Account :=
  { state with
    admins := state.admins.filter fun admin _ => admin ∉ gone
    moderators := state.moderators.filter (· ∉ gone)
    electors := state.electors.filter (· ∉ gone)
    joined := state.joined.filter fun mem _ => mem ∉ gone
    election := state.election.map fun election =>
      { election with votes := election.votes.filter fun voter candidate => voter ∉ gone ∧ candidate ∉ gone } }

section Prune

variable {state : GovernanceState Account} {gone : Multiset Account} {account : Account}

theorem filter_erase {β : Type*} {s : Finmap fun _ : Account => β} :
    (s.erase account).filter (fun a _ => a ∉ gone) = s.filter fun a _ => a ∉ account ::ₘ gone := by
  refine Finmap.ext_lookup fun a => Option.ext fun b => ?_
  simp only [Finmap.lookup_filter_eq_some, Finmap.lookup_erase_eq_some, Multiset.mem_cons, not_or]
  tauto

theorem filter_erase_finset {s : Finset Account} :
    (s.erase account).filter (· ∉ gone) = s.filter (· ∉ account ::ₘ gone) := by
  ext a
  simp only [Finset.mem_filter, Finset.mem_erase, Multiset.mem_cons, not_or]
  tauto

theorem filter_withoutAccount {votes : Votes Account} :
    (withoutAccount votes account).filter (fun voter candidate => voter ∉ gone ∧ candidate ∉ gone) =
      votes.filter fun voter candidate => voter ∉ account ::ₘ gone ∧ candidate ∉ account ::ₘ gone := by
  refine Finmap.ext_lookup fun a => Option.ext fun b => ?_
  simp only [withoutAccount, Finmap.lookup_filter_eq_some, Multiset.mem_cons, not_or]
  tauto

theorem prune_removeAccount : prune (state.removeAccount account) gone = prune state (account ::ₘ gone) := by
  have votes : (prune (state.removeAccount account) gone).election = (prune state (account ::ₘ gone)).election := by
    simp only [prune, removeAccount, Option.map_map]
    refine congrArg (fun prune => state.election.map prune) (funext fun election => ?_)
    exact congrArg (fun votes => { election with votes }) filter_withoutAccount
  rw [GovernanceState.mk.injEq]
  exact ⟨rfl, rfl, rfl, filter_erase, filter_erase_finset, rfl, rfl, filter_erase_finset, votes, filter_erase⟩

theorem prune_zero : prune state 0 = state := by
  have keeps : ∀ {β : Type} (s : Finmap fun _ : Account => β), (s.filter fun a _ => a ∉ (0 : Multiset Account)) = s :=
    fun s => Finmap.ext_lookup fun a => Option.ext fun b => by simp [Finmap.lookup_filter_eq_some]
  have votes : (prune state 0).election = state.election := by
    refine (congrArg (fun prune => state.election.map prune) (funext fun election => ?_)).trans (congrFun Option.map_id _)
    refine congrArg (fun votes => { election with votes }) (Finmap.ext_lookup fun a => Option.ext fun b => ?_)
    simp [Finmap.lookup_filter_eq_some]
  have sets : ∀ s : Finset Account, s.filter (· ∉ (0 : Multiset Account)) = s := fun s => by simp
  rw [GovernanceState.mk.injEq]
  exact ⟨rfl, rfl, rfl, keeps _, sets _, rfl, rfl, sets _, votes, keeps _⟩

theorem foldl_removeAccount : gone.foldl removeAccount state = prune state gone := by
  induction gone using Multiset.induction generalizing state with
  | empty => exact prune_zero.symm
  | cons account gone ih => rw [Multiset.foldl_cons, ih, prune_removeAccount]

end Prune

section Changes

variable (prev next : GovernanceState Account) (actor : Account) (members added : Finset Account)

/-- The roles of a written state do not overlap, and no stamp is ahead of it. -/
structure Shape (next : GovernanceState Account) : Prop where
  owner : ∀ owner ∈ next.owner, owner ∉ next.admins ∧ owner ∉ next.moderators
  disjoint : ∀ moderator ∈ next.moderators, moderator ∉ next.admins
  electors : ∀ elector ∈ next.electors, elector ∈ next.admins
  ownerRev : next.ownerRev ≤ next.rev
  channels : next.announcementChannels.card ≤ maxAnnouncementChannels ∧ "" ∉ next.announcementChannels

/-- Old stamps stay, new ones are of this revision. -/
structure Stamped : Prop where
  seniority : ∀ admin ∈ next.admins.keys,
    next.admins.lookup admin = if prev.roleOf admin = .admin then prev.admins.lookup admin else some next.rev
  kept : prev.joined.keys ⊆ next.joined.keys
  joined : ∀ mem ∈ next.joined.keys,
    if mem ∈ prev.joined then next.joined.lookup mem = prev.joined.lookup mem
    else mem ∈ added ∧ next.joined.lookup mem = some next.rev
  added : ∀ account ∈ added, next.joined.lookup account = some next.rev

/-- An election in a written state. -/
structure PollShape (poll : Election Account) : Prop where
  opened : poll.opened ≤ next.rev
  nonempty : poll.electorate.Nonempty
  electorate : poll.votes.keys ⊆ poll.electorate
  present : poll.votes.keys ⊆ members
  admins : ∀ candidate ∈ candidates poll.votes, candidate ∈ next.admins ∧ candidate ∈ members

/-- Electors are named, and stop being electors while they stay admins, only by the owner. -/
structure ElectorsMoved : Prop where
  gained : ∀ elector ∈ next.electors \ prev.electors,
    prev.owner = some actor ∧ next.owner = prev.owner ∧ elector ≠ actor
  lost : ∀ elector ∈ prev.electors \ next.electors, elector ∈ next.admins → prev.owner = some actor

/-- The right to decide an election: the deciding vote for an admin, or the claim when there is no admin. -/
inductive Mandate (poll : Election Account) (winner : Account) : Prop
  | majority (unvoted : actor ∉ poll.votes) (admin : winner ∈ prev.liveAdmins members)
      (more : poll.electorate.card < ((voters poll.votes winner).card + 1) * 2)
  | claim (nobody : prev.liveAdmins members = ∅) (alone : poll.electorate.card = 1) (self : winner = actor)
      (votes : poll.votes = ∅) (longest : longestServing next.joined members prev.owner = some actor)

/-- Who is in the snapshot of an election that the actor opens. -/
inductive Snapshot : Finset Account → Prop
  | claimant (nobody : prev.liveAdmins members = ∅)
      (longest : longestServing next.joined members prev.owner = some actor) : Snapshot {actor}
  | electors (live : (prev.liveAdmins members).Nonempty) (own : actor ∈ prev.liveElectors members) :
      Snapshot (prev.liveElectors members)
  | admins (nobody : prev.liveElectors members = ∅) (own : actor ∈ prev.seniorAdmins members) :
      Snapshot (prev.seniorAdmins members)

/-- What someone other than the owner does about the election. -/
inductive ElectionMove : Prop
  | idle (was : prev.election = none) (now : next.election = none)
  | closed (poll : Election Account) (was : prev.election = some poll) (now : next.election = none)
      (own : actor ∈ poll.electorate)
  | opened (poll : Election Account) (was : prev.election = none) (now : next.election = some poll)
      (stamp : poll.opened = next.rev) (votes : poll.votes = ∅) (admins : next.admins = prev.admins)
      (electors : next.electors = prev.electors) (snapshot : Snapshot prev next actor members poll.electorate)
  | voted (old new : Election Account) (was : prev.election = some old) (now : next.election = some new)
      (same : new.opened = old.opened ∧ new.electorate = old.electorate)
      (kept : ∀ voter ∈ old.votes.keys, new.votes.lookup voter = old.votes.lookup voter)
      (own : ∀ voter ∈ new.votes.keys, voter ∉ old.votes → voter = actor)
      (undecided : ∀ candidate ∈ candidates new.votes, (voters new.votes candidate).card * 2 ≤ new.electorate.card)

/-- What a change does about the owner; the flag says whether it is a handover by election or claim. -/
inductive OwnershipMove : Bool → Prop
  | byOwner (own : prev.owner = some actor)
      (heir : next.owner = prev.owner ∨ ∃ heir, next.owner = some heir ∧ prev.roleOf heir = .admin ∧ heir ∈ members)
      (closed : next.election = none) : OwnershipMove false
  | kept (other : prev.owner ≠ some actor) (same : next.owner = prev.owner)
      (election : ElectionMove prev next actor members) : OwnershipMove false
  | won (poll : Election Account) (winner : Account) (other : prev.owner ≠ some actor)
      (changed : next.owner ≠ prev.owner) (was : prev.election = some poll) (closed : next.election = none)
      (owner : next.owner = some winner) (own : actor ∈ poll.electorate)
      (mandate : Mandate prev next actor members poll winner)
      (admins : next.admins = adminsAfterWin prev members winner next.rev)
      (electors : next.electors = prev.electors \ {winner}) (moderators : next.moderators = prev.moderators \ {winner})
      (posting : samePosting prev next) : OwnershipMove true

/-- A valid change by the actor. -/
structure Transition (handover : Bool) : Prop where
  rev : next.rev = prev.rev + 1
  shape : Shape next
  named : next.named ⊆ members
  present : actor ∈ members
  roster : next.joined.keys ⊆ members
  stamps : Stamped prev next added
  poll : ∀ poll, next.election = some poll → PollShape next members poll
  posting : samePosting prev next ∨ BuiltInRole.admin.rank ≤ prev.rankOf actor
  electors : ElectorsMoved prev next actor
  ownership : OwnershipMove prev next actor members handover
  ownerRev : next.ownerRev = expectedOwnerRev prev next actor handover
  roles : handover = false → ∀ account ∈ prev.owner.toFinset ∪ prev.named ∪ next.named,
    roleReject prev next actor account = none

end Changes

section Checks

variable {prev next : GovernanceState Account} {actor : Account} {members added : Finset Account}
  {poll : Election Account} {winner : Account} {handover : Bool}

theorem checkShape_ok : checkShape next = .ok () ↔ Shape next := by
  simp only [checkShape, require_ok, require_eq_ok]
  refine ⟨?_, fun shape => ⟨shape.owner, shape.disjoint, shape.electors, shape.ownerRev, shape.channels⟩⟩
  rintro ⟨owner, disjoint, electors, ownerRev, channels⟩
  exact ⟨owner, disjoint, electors, ownerRev, channels⟩

theorem checkStamps_ok : checkStamps prev next added = .ok () ↔ Stamped prev next added := by
  simp only [checkStamps, require_ok, require_eq_ok]
  refine ⟨?_, fun stamped => ⟨stamped.seniority, stamped.kept, stamped.joined, stamped.added⟩⟩
  rintro ⟨seniority, kept, joined, added⟩
  exact ⟨seniority, kept, joined, added⟩

theorem checkPoll_ok :
    checkPoll next members = .ok () ↔ ∀ poll, next.election = some poll → PollShape next members poll := by
  unfold checkPoll
  cases next.election with
  | none => simp
  | some poll =>
    simp only [require_ok, require_eq_ok, Option.some.injEq, forall_eq']
    refine ⟨?_, fun shape => ⟨⟨shape.opened, shape.nonempty⟩, shape.electorate, shape.present, shape.admins⟩⟩
    rintro ⟨⟨opened, nonempty⟩, electorate, present, admins⟩
    exact ⟨opened, nonempty, electorate, present, admins⟩

theorem checkElectors_ok : checkElectors prev next actor = .ok () ↔ ElectorsMoved prev next actor := by
  simp only [checkElectors, require_ok, require_eq_ok]
  exact ⟨fun moved => ⟨moved.1, moved.2⟩, fun moved => ⟨moved.gained, moved.lost⟩⟩

theorem checkMandate_ok :
    checkMandate prev next actor members poll winner = .ok () ↔ Mandate prev next actor members poll winner := by
  unfold checkMandate
  split
  · next live =>
    simp only [require_ok, require_eq_ok]
    refine ⟨fun won => .majority won.1 won.2.1 won.2.2, fun mandate => ?_⟩
    cases mandate with
    | majority unvoted admin more => exact ⟨unvoted, admin, more⟩
    | claim nobody => exact absurd nobody live.ne_empty
  · next nobody =>
    have empty := Finset.not_nonempty_iff_eq_empty.mp nobody
    rw [require_eq_ok]
    refine ⟨fun won => .claim empty won.1 won.2.1 won.2.2.1 won.2.2.2, fun mandate => ?_⟩
    cases mandate with
    | majority unvoted admin more => exact absurd ⟨winner, admin⟩ nobody
    | claim _ alone self votes longest => exact ⟨alone, self, votes, longest⟩

theorem snapshot_ok {electorate : Finset Account} :
    snapshot prev next actor members = .ok electorate ↔ Snapshot prev next actor members electorate := by
  unfold snapshot
  split
  · next empty =>
    simp only [require_ok, pure_eq_ok]
    refine ⟨fun taken => taken.2 ▸ .claimant empty taken.1, fun taken => ?_⟩
    cases taken with
    | claimant _ longest => exact ⟨longest, rfl⟩
    | electors live => exact absurd empty live.ne_empty
    | admins _ own => exact absurd (Finset.mem_filter.mp own).1 (empty ▸ Finset.notMem_empty actor)
  · next live =>
    split
    · next present =>
      simp only [require_ok, pure_eq_ok]
      refine ⟨fun taken => taken.2 ▸ .electors (Finset.nonempty_iff_ne_empty.mpr live) taken.1, fun taken => ?_⟩
      cases taken with
      | claimant empty => exact absurd empty live
      | electors _ own => exact ⟨own, rfl⟩
      | admins nobody => exact absurd nobody present.ne_empty
    · next absent =>
      have nobody := Finset.not_nonempty_iff_eq_empty.mp absent
      simp only [require_ok, pure_eq_ok]
      refine ⟨fun taken => taken.2 ▸ .admins nobody taken.1, fun taken => ?_⟩
      cases taken with
      | claimant empty => exact absurd empty live
      | electors _ own => exact absurd ⟨actor, own⟩ absent
      | admins _ own => exact ⟨own, rfl⟩

theorem checkWin_ok : checkWin prev next actor members = .ok () ↔
      ∃ poll winner, prev.election = some poll ∧ next.election = none ∧ next.owner = some winner ∧
        actor ∈ poll.electorate ∧ Mandate prev next actor members poll winner ∧
        next.admins = adminsAfterWin prev members winner next.rev ∧ next.electors = prev.electors \ {winner} ∧
        next.moderators = prev.moderators \ {winner} ∧ samePosting prev next := by
  unfold checkWin
  split
  · next poll winner was closed owner =>
    simp only [check_bind_eq_ok, require_eq_ok, checkMandate_ok]
    constructor
    · rintro ⟨own, mandate, rest⟩
      exact ⟨poll, winner, was, closed, owner, own, mandate, rest⟩
    · rintro ⟨poll', winner', was', -, owner', own, mandate, rest⟩
      cases was.symm.trans was'
      cases owner.symm.trans owner'
      exact ⟨own, mandate, rest⟩
  · next other =>
    refine ⟨(by rintro ⟨⟩), ?_⟩
    rintro ⟨poll, winner, was, closed, owner, -⟩
    exact absurd owner (other poll winner was closed)

theorem checkElection_ok :
    checkElection prev next actor members = .ok () ↔ ElectionMove prev next actor members := by
  unfold checkElection
  split
  · next was now => exact ⟨fun _ => .idle was now, fun _ => rfl⟩
  · next poll was now =>
    rw [require_eq_ok]
    refine ⟨fun own => .closed poll was now own, fun move => ?_⟩
    cases move with
    | closed other was' now' own => cases was.symm.trans was'; exact own
    | idle was' | opened _ was' => cases was.symm.trans was'
    | voted _ _ _ now' => cases now.symm.trans now'
  · next poll was now =>
    simp only [checkOpening, require_ok]
    simp only [bind_eq_ok, require_eq_ok, snapshot_ok]
    constructor
    · rintro ⟨⟨stamp, votes, admins, electors⟩, electorate, taken, rfl⟩
      exact .opened poll was now stamp votes admins electors taken
    · intro move
      cases move with
      | idle _ now' => cases now.symm.trans now'
      | closed _ was' | voted _ _ was' => cases was.symm.trans was'
      | opened other was' now' stamp votes admins electors taken =>
        cases now.symm.trans now'
        exact ⟨⟨stamp, votes, admins, electors⟩, _, taken, rfl⟩
  · next old new was now =>
    simp only [checkVote, require_ok, require_eq_ok]
    constructor
    · rintro ⟨same, kept, ⟨-, own⟩, undecided⟩
      refine .voted old new was now same kept (fun voter voted unvoted => ?_) fun candidate mem => ?_
      · exact own voter (Finset.mem_filter.mpr ⟨voted, unvoted⟩)
      · exact Nat.le_of_not_lt (undecided candidate mem)
    · intro move
      cases move with
      | idle was' | opened _ was' => cases was.symm.trans was'
      | closed _ _ now' => cases now.symm.trans now'
      | voted old' new' was' now' same kept own undecided =>
        cases was.symm.trans was'
        cases now.symm.trans now'
        have single : ∀ voter ∈ new.votes.keys.filter (· ∉ old.votes), voter = actor := fun voter mem =>
          own voter (Finset.mem_filter.mp mem).1 (Finset.mem_filter.mp mem).2
        refine ⟨same, kept, ⟨?_, single⟩, fun candidate mem => Nat.not_lt_of_le (undecided candidate mem)⟩
        exact Finset.card_le_one.mpr fun a ha b hb => (single a ha).trans (single b hb).symm

theorem checkOwnership_ok :
    checkOwnership prev next actor members = .ok handover ↔ OwnershipMove prev next actor members handover := by
  unfold checkOwnership
  split
  · next own =>
    simp only [require_ok, pure_eq_ok]
    constructor
    · rintro ⟨heir, closed, rfl⟩
      exact .byOwner own heir closed
    · intro move
      cases move with
      | byOwner _ heir closed => exact ⟨heir, closed, rfl⟩
      | kept other | won _ _ other => exact absurd own other
  · next other =>
    split
    · next same =>
      simp only [check_bind_eq_ok, pure_eq_ok, checkElection_ok]
      constructor
      · rintro ⟨election, rfl⟩
        exact .kept other same election
      · intro move
        cases move with
        | byOwner own => exact absurd own other
        | kept _ _ election => exact ⟨election, rfl⟩
        | won _ _ _ changed => exact absurd same changed
    · next changed =>
      simp only [check_bind_eq_ok, require_eq_ok, pure_eq_ok, checkWin_ok]
      constructor
      · rintro ⟨-, ⟨poll, winner, was, closed, owner, own, mandate, admins, electors, moderators, posting⟩, rfl⟩
        exact .won poll winner other changed was closed owner own mandate admins electors moderators posting
      · intro move
        cases move with
        | byOwner own => exact absurd own other
        | kept _ same => exact absurd same changed
        | won poll winner _ _ was closed owner own mandate admins electors moderators posting =>
          exact ⟨owner ▸ rfl, ⟨poll, winner, was, closed, owner, own, mandate, admins, electors, moderators, posting⟩,
            rfl⟩

theorem checkRoles_ok : checkRoles prev next actor = .ok () ↔
      ∀ account ∈ prev.owner.toFinset ∪ prev.named ∪ next.named, roleReject prev next actor account = none := by
  simp only [checkRoles, require_ok, require_eq_ok]
  exact ⟨And.right, fun all => ⟨fun account mem => all account mem ▸ (Option.some_ne_none _).symm, all⟩⟩

/-- A change is accepted exactly when it meets all conditions. -/
theorem validateTransition_ok : validateTransition prev next actor members added = .ok () ↔
      ∃ handover, Transition prev next actor members added handover := by
  simp only [validateTransition, check_bind_eq_ok, require_eq_ok, checkShape_ok, checkStamps_ok, checkPoll_ok,
    checkElectors_ok]
  rw [bind_eq_ok]
  simp only [check_bind_eq_ok, require_eq_ok, checkOwnership_ok]
  constructor
  · rintro ⟨rev, shape, ⟨named, present, roster⟩, stamps, poll, posting, electors, handover, ownership, ownerRev, roles⟩
    refine ⟨handover, rev, shape, named, present, roster, stamps, poll, posting, electors, ownership, ownerRev, ?_⟩
    rintro rfl
    exact checkRoles_ok.mp roles
  · rintro ⟨handover, change⟩
    refine ⟨change.rev, change.shape, ⟨change.named, change.present, change.roster⟩, change.stamps, change.poll,
      change.posting, change.electors, handover, change.ownership, change.ownerRev, ?_⟩
    cases handover with
    | true => rfl
    | false => exact checkRoles_ok.mpr (change.roles rfl)

end Checks

section Commits

variable {prev next : GovernanceState Account} {committer : Account} {before after : Finset Account}

/-- The state from which a change by the committer starts. -/
def baseOf (prev : GovernanceState Account) (before after : Finset Account) : GovernanceState Account :=
  clearDeadElection (prune prev (before \ after).val) after

theorem required_base : (required prev committer before after).base = baseOf prev before after :=
  congrArg (clearDeadElection · after) foldl_removeAccount

section Base

variable {account : Account} {state : GovernanceState Account}

theorem clearDeadElection_cases (state : GovernanceState Account) (after : Finset Account) :
    clearDeadElection state after = state ∨ clearDeadElection state after = { state with election := none } := by
  unfold clearDeadElection
  split
  · split
    · exact .inr rfl
    · exact .inl rfl
  · exact .inl rfl

/-- Clearing an election changes no other field. -/
theorem baseOf_fields :
    (baseOf prev before after).rev = prev.rev ∧ (baseOf prev before after).owner = prev.owner ∧
      (baseOf prev before after).ownerRev = prev.ownerRev ∧ samePosting prev (baseOf prev before after) ∧
      (baseOf prev before after).admins = (prune prev (before \ after).val).admins ∧
      (baseOf prev before after).moderators = (prune prev (before \ after).val).moderators ∧
      (baseOf prev before after).electors = (prune prev (before \ after).val).electors ∧
      (baseOf prev before after).joined = (prune prev (before \ after).val).joined := by
  unfold baseOf
  rcases clearDeadElection_cases (prune prev (before \ after).val) after with same | same
  · rw [same]
    exact ⟨rfl, rfl, rfl, ⟨rfl, rfl⟩, rfl, rfl, rfl, rfl⟩
  · rw [same]
    exact ⟨rfl, rfl, rfl, ⟨rfl, rfl⟩, rfl, rfl, rfl, rfl⟩

theorem baseOf_rev : (baseOf prev before after).rev = prev.rev := baseOf_fields.1

theorem baseOf_owner : (baseOf prev before after).owner = prev.owner := baseOf_fields.2.1

theorem baseOf_ownerRev : (baseOf prev before after).ownerRev = prev.ownerRev := baseOf_fields.2.2.1

theorem baseOf_posting : samePosting prev (baseOf prev before after) := baseOf_fields.2.2.2.1

/-- An account leaves the roster. -/
theorem mem_gone : account ∈ (before \ after).val ↔ account ∈ before ∧ account ∉ after :=
  Finset.mem_sdiff

theorem lookup_baseOf_admins {since : ℕ} : (baseOf prev before after).admins.lookup account = some since ↔
      prev.admins.lookup account = some since ∧ ¬ (account ∈ before ∧ account ∉ after) := by
  rw [baseOf_fields.2.2.2.2.1, prune, Finmap.lookup_filter_eq_some, mem_gone]

theorem mem_baseOf_admins :
    account ∈ (baseOf prev before after).admins ↔ account ∈ prev.admins ∧ ¬ (account ∈ before ∧ account ∉ after) := by
  simp only [Finmap.mem_iff, lookup_baseOf_admins, exists_and_right]

theorem mem_baseOf_moderators : account ∈ (baseOf prev before after).moderators ↔
      account ∈ prev.moderators ∧ ¬ (account ∈ before ∧ account ∉ after) := by
  rw [baseOf_fields.2.2.2.2.2.1, prune, Finset.mem_filter, mem_gone]

theorem mem_baseOf_electors : account ∈ (baseOf prev before after).electors ↔
      account ∈ prev.electors ∧ ¬ (account ∈ before ∧ account ∉ after) := by
  rw [baseOf_fields.2.2.2.2.2.2.1, prune, Finset.mem_filter, mem_gone]

theorem lookup_baseOf_joined {stamp : ℕ} : (baseOf prev before after).joined.lookup account = some stamp ↔
      prev.joined.lookup account = some stamp ∧ ¬ (account ∈ before ∧ account ∉ after) := by
  rw [baseOf_fields.2.2.2.2.2.2.2, prune, Finmap.lookup_filter_eq_some, mem_gone]

/-- An election that is still open has a member of its snapshot in the roster, and lost only votes. -/
theorem baseOf_election {poll : Election Account} (isOpen : (baseOf prev before after).election = some poll) :
    ∃ old, prev.election = some old ∧ poll.opened = old.opened ∧ poll.electorate = old.electorate ∧
      (∃ elector ∈ poll.electorate, elector ∈ after) ∧
      ∀ voter candidate, poll.votes.lookup voter = some candidate ↔ old.votes.lookup voter = some candidate ∧
        ¬ (voter ∈ before ∧ voter ∉ after) ∧ ¬ (candidate ∈ before ∧ candidate ∉ after) := by
  unfold baseOf clearDeadElection at isOpen
  split at isOpen
  · next election pruned =>
    obtain ⟨old, was, rfl⟩ := Option.map_eq_some_iff.mp pruned
    split at isOpen
    · cases isOpen
    · next alive =>
      rw [pruned] at isOpen
      cases isOpen
      refine ⟨old, was, rfl, rfl, Finset.not_disjoint_iff.mp alive, fun voter candidate => ?_⟩
      rw [Finmap.lookup_filter_eq_some, mem_gone, mem_gone]
  · next pruned =>
    rw [pruned] at isOpen
    cases isOpen

/-- The role of an account that does not leave is as before. -/
theorem roleOf_baseOf (stays : ¬ (account ∈ before ∧ account ∉ after)) :
    (baseOf prev before after).roleOf account = prev.roleOf account := by
  unfold roleOf
  rw [baseOf_owner]
  simp only [mem_baseOf_admins, mem_baseOf_moderators, stays, not_false_eq_true, and_true]

end Base

/-- The record that the roster change alone requires. -/
theorem required_record (prev : GovernanceState Account) (committer : Account) (before after : Finset Account) :
    (required prev committer before after).record =
      if (after \ before).Nonempty ∨ prev.owner = some committer ∧ (baseOf prev before after).election.isSome then
        { baseOf prev before after with
          rev := prev.rev + 1
          election := if prev.owner = some committer then none else (baseOf prev before after).election
          joined := (baseOf prev before after).joined.insertAll (after \ before) (prev.rev + 1) }
      else baseOf prev before after := by
  have base : clearDeadElection ((before \ after).val.foldl removeAccount prev) after = baseOf prev before after :=
    congrArg (clearDeadElection · after) foldl_removeAccount
  simp only [required, base, decide_eq_true_eq, baseOf_rev]
  split
  · cases isOpen : (baseOf prev before after).election <;> simp
  · rfl

/-- A commit is accepted when it carries the required record or a valid change. -/
theorem validateCommit_ok : validateCommit prev next committer before after = .ok () ↔
      next = (required prev committer before after).record ∨
      next ≠ (required prev committer before after).record ∧ next ≠ prev ∧
        ∃ handover, Transition (baseOf prev before after) next committer after (after \ before) handover := by
  unfold validateCommit
  dsimp only
  rw [required_base]
  split
  · next same => exact ⟨fun _ => .inl same, fun _ => rfl⟩
  · next other =>
    split
    · next unchanged =>
      refine ⟨nofun, ?_⟩
      rintro (same | ⟨-, changed, -⟩)
      · exact absurd same other
      · exact absurd unchanged changed
    · next changed =>
      rw [validateTransition_ok]
      exact ⟨fun valid => .inr ⟨other, changed, valid⟩, fun accepted =>
        (accepted.resolve_left other).2.2⟩

theorem processCommit_ok {group later : GroupView Account} {commit : Commit Account} {answer : Unit} :
    processCommit group commit = .ok (answer, later) ↔
      validateCommit group.state commit.next commit.committer group.roster commit.roster = .ok () ∧
        later = ⟨commit.next, commit.roster⟩ := by
  simp only [processCommit, check_bind_eq_ok, pure_eq_ok, Prod.mk.injEq, true_and]
  exact and_congr_right fun _ => eq_comm

end Commits

end Veritra.Governance
