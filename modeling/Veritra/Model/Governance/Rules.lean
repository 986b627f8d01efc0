import Veritra.Machine.Guard
import Veritra.Relational.Maps

/-! # Group roles

`governance.dart`. A group's role state travels with its MLS commits, and every device checks each commit
with `validateCommit`: the state after it must be the record that the roster change alone requires, or a valid
change by the committer. Ownership moves by a transfer, by an election, or, when no admin is left, by the claim
of the longest-serving member. The waiting times of an election are local to each device and not part of the
check.
-/

namespace Veritra.Governance

open Machine

inductive BuiltInRole
  | member | moderator | admin | owner
  deriving DecidableEq, Repr

/-- `BuiltInRole.rank`. -/
def BuiltInRole.rank : BuiltInRole → ℕ
  | .member => 1
  | .moderator => 2
  | .admin => 3
  | .owner => 4

def maxAnnouncementChannels : ℕ := 500

/-- Account ids are ordered, as `String.compareTo` orders them. -/
abbrev Stamps (Account : Type) := Finmap fun _ : Account => ℕ

/-- Voter to candidate. -/
abbrev Votes (Account : Type) := Finmap fun _ : Account => Account

structure Election (Account : Type) where
  opened : ℕ
  electorate : Finset Account
  votes : Votes Account
  deriving DecidableEq

structure GovernanceState (Account : Type) where
  rev : ℕ
  owner : Option Account
  ownerRev : ℕ
  admins : Stamps Account
  moderators : Finset Account
  adminsOnlyPosting : Bool
  announcementChannels : Finset String
  electors : Finset Account
  election : Option (Election Account)
  joined : Stamps Account
  deriving DecidableEq

/-- Why a change was refused. -/
inductive GovernanceReject
  | badRev | badShape | notMember | notAllowed | hierarchy | ownerChange | election | notPruned
  deriving DecidableEq, Repr

/-- `GovernanceCheck`. -/
abbrev GovernanceCheck := Except GovernanceReject Unit

variable {Account : Type} [LinearOrder Account]

def voters (votes : Votes Account) (candidate : Account) : Finset Account :=
  votes.keys.filter fun voter => votes.lookup voter = some candidate

def candidates (votes : Votes Account) : Finset Account :=
  votes.keys.biUnion fun voter => (votes.lookup voter).toFinset

/-- The votes that stay when the account leaves: neither by it nor for it. -/
def withoutAccount (votes : Votes Account) (account : Account) : Votes Account :=
  votes.filter fun voter candidate => voter ≠ account ∧ candidate ≠ account

/-- Members serve from their join stamp; equal stamps are ordered by account id. -/
def service (joined : Stamps Account) (account : Account) : ℕ ×ₗ Account :=
  toLex ((joined.lookup account).getD 0, account)

/-- `_longestServing`: the smallest join stamp, then the smallest account id. -/
def longestServing (joined : Stamps Account) (members : Finset Account) (owner : Option Account) :
    Option Account :=
  let others := members.filter fun mem => owner ≠ some mem
  if others ⊆ joined.keys then
    ((others.image (service joined)).min).recTopCoe none fun least => some (ofLex least).2
  else none

namespace GovernanceState

/-- The creator owns the group, nobody else holds a role, nothing is restricted. -/
def genesis (creator : Account) : GovernanceState Account where
  rev := 0
  owner := some creator
  ownerRev := 0
  admins := ∅
  moderators := ∅
  adminsOnlyPosting := false
  announcementChannels := ∅
  electors := ∅
  election := none
  joined := Finmap.singleton creator 0

def roleOf (state : GovernanceState Account) (account : Account) : BuiltInRole :=
  if state.owner = some account then .owner
  else if account ∈ state.admins then .admin
  else if account ∈ state.moderators then .moderator
  else .member

def rankOf (state : GovernanceState Account) (account : Account) : ℕ := (state.roleOf account).rank

/-- The accounts of the record that must be in the roster. The owner may be out of it. -/
def named (state : GovernanceState Account) : Finset Account := state.admins.keys ∪ state.moderators

/-- The state after the account's last device left the group. -/
def removeAccount (state : GovernanceState Account) (account : Account) : GovernanceState Account :=
  { state with
    admins := state.admins.erase account
    moderators := state.moderators.erase account
    electors := state.electors.erase account
    joined := state.joined.erase account
    election := state.election.map fun election =>
      { election with votes := withoutAccount election.votes account } }

/-- Removals can be made in any order. -/
instance : RightCommutative (@removeAccount Account _) where
  right_comm state a b := by
    have votes : (state.removeAccount a |>.removeAccount b).election =
        (state.removeAccount b |>.removeAccount a).election := by
      simp only [removeAccount, Option.map_map]
      refine congrArg (fun prune => state.election.map prune) (funext fun election => ?_)
      have votes : withoutAccount (withoutAccount election.votes a) b = withoutAccount (withoutAccount election.votes b) a :=
        Finmap.filter_filter_comm
      exact congrArg (fun votes => { election with votes }) votes
    unfold removeAccount at votes ⊢
    rw [GovernanceState.mk.injEq]
    exact ⟨rfl, rfl, rfl, Finmap.erase_erase, Finset.erase_right_comm, rfl, rfl, Finset.erase_right_comm, votes,
      Finmap.erase_erase⟩

def liveAdmins (state : GovernanceState Account) (members : Finset Account) : Finset Account :=
  state.admins.keys.filter (· ∈ members)

def liveElectors (state : GovernanceState Account) (members : Finset Account) : Finset Account :=
  state.electors.filter (· ∈ members)

/-- The admins in the roster who were admin at the owner's last role decision. -/
def seniorAdmins (state : GovernanceState Account) (members : Finset Account) : Finset Account :=
  (state.liveAdmins members).filter fun admin => ∃ since ∈ state.admins.lookup admin, since ≤ state.ownerRev

end GovernanceState

open GovernanceState

structure Required (Account : Type) where
  base : GovernanceState Account
  record : GovernanceState Account
  cancel : Bool

/-- An election with nobody of its snapshot left in the roster is cleared. -/
def clearDeadElection (state : GovernanceState Account) (after : Finset Account) : GovernanceState Account :=
  match state.election with
  | some election => if Disjoint election.electorate after then { state with election := none } else state
  | none => state

/-- `_required`: the removed accounts are pruned and a dead election is cleared. Then an add stamps `joined`, and
a commit by the owner clears an open election. -/
def required (prev : GovernanceState Account) (committer : Account) (before after : Finset Account) :
    Required Account :=
  let base := clearDeadElection ((before \ after).val.foldl removeAccount prev) after
  let added := after \ before
  let cancel : Bool := prev.owner = some committer ∧ base.election.isSome
  let record :=
    if added.Nonempty ∨ cancel then
      { base with
        rev := base.rev + 1
        election := if cancel then none else base.election
        joined := base.joined.insertAll added (base.rev + 1) }
    else base
  { base, record, cancel }

/-- What every written state looks like. -/
def checkShape (next : GovernanceState Account) : GovernanceCheck := do
  require (∀ owner ∈ next.owner, owner ∉ next.admins ∧ owner ∉ next.moderators) .badShape
  require (∀ moderator ∈ next.moderators, moderator ∉ next.admins) .badShape
  require (∀ elector ∈ next.electors, elector ∈ next.admins) .badShape
  require (next.ownerRev ≤ next.rev) .badShape
  require (next.announcementChannels.card ≤ maxAnnouncementChannels ∧ "" ∉ next.announcementChannels) .badShape

/-- An admin keeps its seniority; a new admin starts at this revision. A join stamp is written once, when the
account is added, and only a removal drops it. -/
def checkStamps (prev next : GovernanceState Account) (added : Finset Account) : GovernanceCheck := do
  require (∀ admin ∈ next.admins.keys,
    next.admins.lookup admin = if prev.roleOf admin = .admin then prev.admins.lookup admin else some next.rev) .badShape
  require (prev.joined.keys ⊆ next.joined.keys) .badShape
  require (∀ mem ∈ next.joined.keys,
    if mem ∈ prev.joined then next.joined.lookup mem = prev.joined.lookup mem
    else mem ∈ added ∧ next.joined.lookup mem = some next.rev) .badShape
  require (∀ account ∈ added, next.joined.lookup account = some next.rev) .badShape

/-- An election that is open after the commit. -/
def checkPoll (next : GovernanceState Account) (members : Finset Account) : GovernanceCheck :=
  match next.election with
  | none => .ok ()
  | some poll => do
    require (poll.opened ≤ next.rev ∧ poll.electorate.Nonempty) .badShape
    require (poll.votes.keys ⊆ poll.electorate) .badShape
    require (poll.votes.keys ⊆ members) .notMember
    require (∀ candidate ∈ candidates poll.votes, candidate ∈ next.admins ∧ candidate ∈ members) .election

def samePosting (prev next : GovernanceState Account) : Prop :=
  next.adminsOnlyPosting = prev.adminsOnlyPosting ∧ next.announcementChannels = prev.announcementChannels

instance (prev next : GovernanceState Account) : Decidable (samePosting prev next) :=
  inferInstanceAs (Decidable (_ ∧ _))

/-- Only an owner's commit sets or clears the flag of an admin that stays admin, never in a transfer. -/
def checkElectors (prev next : GovernanceState Account) (actor : Account) : GovernanceCheck := do
  require (∀ elector ∈ next.electors \ prev.electors,
    prev.owner = some actor ∧ next.owner = prev.owner ∧ elector ≠ actor) .notAllowed
  require (∀ elector ∈ prev.electors \ next.electors, elector ∈ next.admins → prev.owner = some actor) .notAllowed

/-- Who may decide: the deciding vote of an open election, or, with no admin in the roster, the sole claimant. -/
def checkMandate (prev next : GovernanceState Account) (actor : Account) (members : Finset Account)
    (poll : Election Account) (winner : Account) : GovernanceCheck :=
  if (prev.liveAdmins members).Nonempty then do
    require (actor ∉ poll.votes) .election
    require (winner ∈ prev.liveAdmins members) .ownerChange
    require (poll.electorate.card < ((voters poll.votes winner).card + 1) * 2) .ownerChange
  else
    require (poll.electorate.card = 1 ∧ winner = actor ∧ poll.votes = ∅ ∧
      longestServing next.joined members prev.owner = some actor) .ownerChange

/-- The admins after a win: the old owner, if still in the roster, becomes one from this revision. -/
def adminsAfterWin (prev : GovernanceState Account) (members : Finset Account) (winner : Account) (rev : ℕ) :
    Stamps Account :=
  match prev.owner with
  | some old => if old ∈ members then (prev.admins.erase winner).insert old rev else prev.admins.erase winner
  | none => prev.admins.erase winner

/-- `_checkWin`: a commit by someone else that sets the owner. -/
def checkWin (prev next : GovernanceState Account) (actor : Account) (members : Finset Account) : GovernanceCheck :=
  match prev.election, next.election, next.owner with
  | some poll, none, some winner => do
    require (actor ∈ poll.electorate) .ownerChange
    checkMandate prev next actor members poll winner
    require (next.admins = adminsAfterWin prev members winner next.rev ∧
      next.electors = prev.electors \ {winner} ∧ next.moderators = prev.moderators \ {winner} ∧
      samePosting prev next) .badShape
  | _, _, _ => .error .ownerChange

/-- The snapshot of an election that the actor opens. With no elector present, only those vote who were admin at
the owner's last role decision. -/
def snapshot (prev next : GovernanceState Account) (actor : Account) (members : Finset Account) :
    Except GovernanceReject (Finset Account) :=
  if prev.liveAdmins members = ∅ then do
    require (longestServing next.joined members prev.owner = some actor) .election
    pure {actor}
  else if (prev.liveElectors members).Nonempty then do
    require (actor ∈ prev.liveElectors members) .election
    pure (prev.liveElectors members)
  else do
    require (actor ∈ prev.seniorAdmins members) .election
    pure (prev.seniorAdmins members)

/-- Open an election: nothing about the admins changes, and there are no votes yet. -/
def checkOpening (prev next : GovernanceState Account) (actor : Account) (members : Finset Account)
    (now : Election Account) : GovernanceCheck := do
  require (now.opened = next.rev ∧ now.votes = ∅ ∧ next.admins = prev.admins ∧ next.electors = prev.electors) .election
  let electorate ← snapshot prev next actor members
  require (now.electorate = electorate) .election

/-- Vote: the same election, old votes kept, at most the actor's own added, and none that decides. -/
def checkVote (was now : Election Account) (actor : Account) : GovernanceCheck := do
  require (now.opened = was.opened ∧ now.electorate = was.electorate) .election
  require (∀ voter ∈ was.votes.keys, now.votes.lookup voter = was.votes.lookup voter) .election
  let fresh := now.votes.keys.filter (· ∉ was.votes)
  require (fresh.card ≤ 1 ∧ ∀ voter ∈ fresh, voter = actor) .election
  require (∀ candidate ∈ candidates now.votes, ¬ now.electorate.card < (voters now.votes candidate).card * 2) .election

/-- `_checkElection`: open, close and vote by someone other than the owner, without a transfer. -/
def checkElection (prev next : GovernanceState Account) (actor : Account) (members : Finset Account) :
    GovernanceCheck :=
  match prev.election, next.election with
  | none, none => .ok ()
  | some was, none => require (actor ∈ was.electorate) .election
  | none, some now => checkOpening prev next actor members now
  | some was, some now => checkVote was now actor

/-- The owner, and the election with it. Says whether this is a handover by election or claim. -/
def checkOwnership (prev next : GovernanceState Account) (actor : Account) (members : Finset Account) :
    Except GovernanceReject Bool :=
  if prev.owner = some actor then do
    require (next.owner = prev.owner ∨ ∃ heir ∈ next.owner, prev.roleOf heir = .admin ∧ heir ∈ members) .ownerChange
    require (next.election = none) .election
    pure false
  else if next.owner = prev.owner then do
    checkElection prev next actor members
    pure false
  else do
    require next.owner.isSome .ownerChange
    checkWin prev next actor members
    pure true

/-- The committer changed a role or a posting field. -/
def ownChange (prev next : GovernanceState Account) : Prop :=
  next.owner ≠ prev.owner ∨ next.admins ≠ prev.admins ∨ next.moderators ≠ prev.moderators ∨
    next.electors ≠ prev.electors ∨ ¬ samePosting prev next

instance (prev next : GovernanceState Account) : Decidable (ownChange prev next) :=
  inferInstanceAs (Decidable (_ ∨ _))

/-- The role change of one account. Anyone may step down; every other change needs a moderator who outranks the
account and gives at most its own rank. -/
def roleReject (prev next : GovernanceState Account) (actor account : Account) : Option GovernanceReject :=
  let was := prev.roleOf account
  let now := next.roleOf account
  if was = now then none
  else if next.owner ≠ prev.owner ∧ next.owner = some account then none
  else if account = actor then if now.rank < was.rank then none else some .hierarchy
  else if prev.rankOf actor < BuiltInRole.moderator.rank then some .notAllowed
  else if prev.rankOf actor ≤ was.rank ∨ prev.rankOf actor < now.rank then some .hierarchy
  else none

/-- All role changes. When several are refused, Dart reports the first in the order of its sets; here a missing
right goes before the hierarchy. -/
def checkRoles (prev next : GovernanceState Account) (actor : Account) : GovernanceCheck := do
  let accounts := prev.owner.toFinset ∪ prev.named ∪ next.named
  require (∀ account ∈ accounts, roleReject prev next actor account ≠ some .notAllowed) .notAllowed
  require (∀ account ∈ accounts, roleReject prev next actor account = none) .hierarchy

/-- The owner's last role decision: only the owner's own change and a handover move it, and then to this revision. -/
def expectedOwnerRev (prev next : GovernanceState Account) (actor : Account) (handover : Bool) : ℕ :=
  if handover ∨ prev.owner = some actor ∧ ownChange prev next then next.rev else prev.ownerRev

/-- `validateTransition`. -/
def validateTransition (prev next : GovernanceState Account) (actor : Account) (members added : Finset Account) :
    GovernanceCheck := do
  require (next.rev = prev.rev + 1) .badRev
  checkShape next
  require (next.named ⊆ members ∧ actor ∈ members ∧ next.joined.keys ⊆ members) .notMember
  checkStamps prev next added
  checkPoll next members
  require (samePosting prev next ∨ BuiltInRole.admin.rank ≤ prev.rankOf actor) .notAllowed
  checkElectors prev next actor
  let handover ← checkOwnership prev next actor members
  require (next.ownerRev = expectedOwnerRev prev next actor handover) .badShape
  -- A won election moves exactly the roles that the win fixed.
  if handover then .ok () else checkRoles prev next actor

/-- `validateCommit`: the state after the commit is exactly the required record, or a valid change by the
committer from the pruned state. -/
def validateCommit (prev next : GovernanceState Account) (committer : Account) (before after : Finset Account) :
    GovernanceCheck :=
  let needed := required prev committer before after
  if next = needed.record then .ok ()
  else if next = prev then
    .error (if needed.cancel then .election else if needed.base ≠ prev then .notPruned else .badRev)
  else validateTransition needed.base next committer after (after \ before)

/-- A group as its members see it: the role state and the MLS roster. -/
structure GroupView (Account : Type) where
  state : GovernanceState Account
  roster : Finset Account
  deriving DecidableEq

/-- An MLS commit: the authenticated committer, the state it carries and the roster after it. -/
structure Commit (Account : Type) where
  committer : Account
  next : GovernanceState Account
  roster : Finset Account
  deriving DecidableEq

def processCommit (group : GroupView Account) (commit : Commit Account) :
    Except GovernanceReject (Unit × GroupView Account) := do
  validateCommit group.state commit.next commit.committer group.roster commit.roster
  pure ((), ⟨commit.next, commit.roster⟩)

/-- The committer is in the roster before and after its commit. -/
def byMember (group : GroupView Account) (commit : Commit Account) : Prop :=
  commit.committer ∈ group.roster ∧ commit.committer ∈ commit.roster

instance (group : GroupView Account) (commit : Commit Account) : Decidable (byMember group commit) :=
  inferInstanceAs (Decidable (_ ∧ _))

def GroupView.genesis (creator : Account) : GroupView Account := ⟨.genesis creator, {creator}⟩

end Veritra.Governance
