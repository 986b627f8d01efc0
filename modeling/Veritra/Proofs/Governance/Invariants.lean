import Veritra.Proofs.Governance.Transitions

/-! # The shape of a reachable role state

One invariant over all fields. It is stated for two rosters, since a commit is checked against the pruned state:
the accounts in it are of the roster before and after, while an open election needs somebody of its snapshot in
the roster after.
-/

namespace Veritra.Governance

open Machine GovernanceState

variable {Account : Type} [LinearOrder Account]

section LongestServing

variable {joined : Stamps Account} {members : Finset Account} {owner : Option Account} {account : Account}

theorem longestServing_spec (longest : longestServing joined members owner = some account) :
    account ∈ members ∧ owner ≠ some account ∧
      ∀ mem ∈ members, owner ≠ some mem → service joined account ≤ service joined mem := by
  unfold longestServing at longest
  dsimp only at longest
  split at longest
  · generalize least : ((members.filter fun mem => owner ≠ some mem).image (service joined)).min = top at longest
    cases top with
    | top => cases longest
    | coe key =>
      have found := Finset.mem_of_min least
      obtain ⟨mem, candidate, rfl⟩ := Finset.mem_image.mp found
      cases longest
      refine ⟨(Finset.mem_filter.mp candidate).1, (Finset.mem_filter.mp candidate).2, fun other there apart => ?_⟩
      have candidate : other ∈ members.filter fun mem => owner ≠ some mem := Finset.mem_filter.mpr ⟨there, apart⟩
      have bound := Finset.min_le (Finset.mem_image_of_mem (service joined) candidate)
      rw [least] at bound
      exact WithTop.coe_le_coe.mp bound
  · cases longest

/-- With a join stamp for every member, somebody has served longest. -/
theorem exists_longestServing (stamped : ∀ mem ∈ members, mem ∈ joined) (there : account ∈ members)
    (apart : owner ≠ some account) : ∃ longest, longestServing joined members owner = some longest := by
  have covered : (members.filter fun mem => owner ≠ some mem) ⊆ joined.keys :=
    fun mem candidate => Finmap.mem_keys.mpr (stamped mem (Finset.mem_filter.mp candidate).1)
  have some : ((members.filter fun mem => owner ≠ some mem).image (service joined)).Nonempty :=
    ⟨_, Finset.mem_image_of_mem _ (Finset.mem_filter.mpr ⟨there, apart⟩)⟩
  obtain ⟨key, least⟩ := Finset.min_of_nonempty some
  refine ⟨(ofLex key).2, ?_⟩
  unfold longestServing
  rw [if_pos covered, least]
  rfl

end LongestServing

/-- An open election. -/
structure PollSound (state : GovernanceState Account) (roster alive : Finset Account) (poll : Election Account) :
    Prop where
  opened : poll.opened ≤ state.rev
  owner : ∀ owner, state.owner = some owner → owner ∉ poll.electorate
  alive : ∃ elector ∈ poll.electorate, elector ∈ alive
  votes : ∀ voter candidate, poll.votes.lookup voter = some candidate →
    (voter ∈ poll.electorate ∧ voter ∈ roster) ∧ candidate ∈ state.admins ∧ candidate ∈ roster
  undecided : ∀ candidate, (voters poll.votes candidate).card * 2 ≤ poll.electorate.card

/-- A role state whose accounts are in the roster. -/
structure WellFormed (state : GovernanceState Account) (roster alive : Finset Account) : Prop where
  owner : ∃ owner, state.owner = some owner ∧ owner ∉ state.admins ∧ owner ∉ state.moderators ∧ owner ∉ state.electors
  disjoint : ∀ moderator ∈ state.moderators, moderator ∉ state.admins
  electors : ∀ elector ∈ state.electors, elector ∈ state.admins
  admins : ∀ admin ∈ state.admins, admin ∈ roster
  moderators : ∀ moderator ∈ state.moderators, moderator ∈ roster
  joined : ∀ account, account ∈ state.joined ↔ account ∈ roster
  ownerRev : state.ownerRev ≤ state.rev
  seniority : ∀ admin since, state.admins.lookup admin = some since → since ≤ state.rev
  joinedRev : ∀ mem stamp, state.joined.lookup mem = some stamp → stamp ≤ state.rev
  channels : state.announcementChannels.card ≤ maxAnnouncementChannels ∧ "" ∉ state.announcementChannels
  election : ∀ poll, state.election = some poll → PollSound state roster alive poll

section Keeps

variable {prev next : GovernanceState Account} {committer candidate : Account} {before after : Finset Account}
  {votes : Votes Account}

theorem mem_voters {voter : Account} :
    voter ∈ voters votes candidate ↔ votes.lookup voter = some candidate := by
  rw [voters, Finset.mem_filter, Finmap.mem_keys]
  exact ⟨And.right, fun vote => ⟨Finmap.mem_of_lookup_eq_some vote, vote⟩⟩

theorem mem_candidates : candidate ∈ candidates votes ↔ ∃ voter, votes.lookup voter = some candidate := by
  simp only [candidates, Finset.mem_biUnion, Option.mem_toFinset, Option.mem_def, Finmap.mem_keys]
  exact ⟨fun ⟨voter, _, vote⟩ => ⟨voter, vote⟩, fun ⟨voter, vote⟩ => ⟨voter, Finmap.mem_of_lookup_eq_some vote, vote⟩⟩

theorem voters_empty : voters (∅ : Votes Account) candidate = ∅ :=
  Finset.eq_empty_of_forall_notMem fun voter mem => by
    rw [mem_voters, Finmap.lookup_empty] at mem
    cases mem

/-- Pruning keeps the invariant, for the accounts that stay. -/
theorem wellFormed_baseOf (sound : WellFormed prev before before) :
    WellFormed (baseOf prev before after) (before ∩ after) after := by
  have stays : ∀ {account}, account ∈ before → ¬ (account ∈ before ∧ account ∉ after) → account ∈ before ∩ after :=
    fun there kept => Finset.mem_inter.mpr ⟨there, not_not.mp fun gone => kept ⟨there, gone⟩⟩
  obtain ⟨owner, owns, noAdmin, noModerator, noElector⟩ := sound.owner
  refine {
    owner := ⟨owner, baseOf_owner.trans owns, fun admin => noAdmin (mem_baseOf_admins.mp admin).1,
      fun moderator => noModerator (mem_baseOf_moderators.mp moderator).1,
      fun elector => noElector (mem_baseOf_electors.mp elector).1⟩
    disjoint := fun moderator mem admin =>
      sound.disjoint moderator (mem_baseOf_moderators.mp mem).1 (mem_baseOf_admins.mp admin).1
    electors := fun elector mem => mem_baseOf_admins.mpr
      ⟨sound.electors elector (mem_baseOf_electors.mp mem).1, (mem_baseOf_electors.mp mem).2⟩
    admins := fun admin mem =>
      stays (sound.admins admin (mem_baseOf_admins.mp mem).1) (mem_baseOf_admins.mp mem).2
    moderators := fun moderator mem =>
      stays (sound.moderators moderator (mem_baseOf_moderators.mp mem).1) (mem_baseOf_moderators.mp mem).2
    joined := fun account => ?_
    ownerRev := by rw [baseOf_ownerRev, baseOf_rev]; exact sound.ownerRev
    seniority := fun admin since found => by
      rw [baseOf_rev]
      exact sound.seniority admin since (lookup_baseOf_admins.mp found).1
    joinedRev := fun mem stamp found => by
      rw [baseOf_rev]
      exact sound.joinedRev mem stamp (lookup_baseOf_joined.mp found).1
    channels := by rw [baseOf_posting.2]; exact sound.channels
    election := fun poll isOpen => ?_ }
  · simp only [Finmap.mem_iff, lookup_baseOf_joined, exists_and_right]
    rw [← Finmap.mem_iff (s := prev.joined), sound.joined]
    refine ⟨fun ⟨there, kept⟩ => stays there kept, fun mem => ?_⟩
    obtain ⟨there, still⟩ := Finset.mem_inter.mp mem
    exact ⟨there, fun gone => gone.2 still⟩
  · obtain ⟨old, was, opened, electorate, alive, votes⟩ := baseOf_election isOpen
    have poll := sound.election old was
    refine ⟨?_, ?_, alive, fun voter candidate vote => ?_, fun candidate => ?_⟩
    · rw [opened, baseOf_rev]
      exact poll.opened
    · rw [baseOf_owner, electorate]
      exact poll.owner
    · obtain ⟨vote, voter, candidate⟩ := (votes voter candidate).mp vote
      obtain ⟨⟨elector, there⟩, admin, present⟩ := poll.votes _ _ vote
      exact ⟨⟨electorate ▸ elector, stays there voter⟩, mem_baseOf_admins.mpr ⟨admin, candidate⟩,
        stays present candidate⟩
    · have fewer : voters _ candidate ⊆ voters old.votes candidate := fun voter mem =>
        mem_voters.mpr ((votes voter candidate).mp (mem_voters.mp mem)).1
      rw [electorate]
      exact (Nat.mul_le_mul_right 2 (Finset.card_le_card fewer)).trans (poll.undecided candidate)

theorem wellFormed_record (sound : WellFormed prev before before) :
    WellFormed (required prev committer before after).record after after := by
  have base : WellFormed (baseOf prev before after) (before ∩ after) after := wellFormed_baseOf sound
  have inside : before ∩ after ⊆ after := Finset.inter_subset_right
  have later : (baseOf prev before after).rev ≤ prev.rev + 1 := by
    rw [baseOf_rev]
    exact Nat.le_succ _
  rw [required_record]
  split
  · refine {
      owner := base.owner
      disjoint := base.disjoint
      electors := base.electors
      admins := fun admin mem => inside (base.admins admin mem)
      moderators := fun moderator mem => inside (base.moderators moderator mem)
      joined := fun account => ?_
      ownerRev := base.ownerRev.trans later
      seniority := fun admin since found => (base.seniority admin since found).trans later
      joinedRev := fun mem stamp found => ?_
      channels := base.channels
      election := fun poll isOpen => ?_ }
    · rw [Finmap.mem_insertAll, base.joined, Finset.mem_sdiff, Finset.mem_inter]
      tauto
    · rw [Finmap.lookup_insertAll] at found
      split at found
      · exact (Option.some.inj found).ge
      · exact (base.joinedRev mem stamp found).trans later
    · split at isOpen
      · cases isOpen
      · have sound := base.election poll isOpen
        exact ⟨sound.opened.trans later, sound.owner, sound.alive, fun voter candidate vote =>
          have ⟨⟨elector, there⟩, admin, present⟩ := sound.votes voter candidate vote
          ⟨⟨elector, inside there⟩, admin, inside present⟩, sound.undecided⟩
  · next bare =>
    have nobody : after ⊆ before := Finset.sdiff_eq_empty_iff_subset.mp
      (Finset.not_nonempty_iff_eq_empty.mp fun added => bare (.inl added))
    rwa [Finset.inter_eq_right.mpr nobody] at base

section Transitions

variable {actor : Account} {members added roster electorate : Finset Account} {handover : Bool}
  {poll : Election Account}

theorem Transition.owner_eq (change : Transition prev next actor members added handover)
    (isOpen : next.election = some poll) : next.owner = prev.owner ∧ ElectionMove prev next actor members := by
  cases change.ownership with
  | byOwner _ _ closed | won _ _ _ _ _ closed => cases closed.symm.trans isOpen
  | kept _ same move => exact ⟨same, move⟩

theorem Snapshot.own (taken : Snapshot prev next actor members electorate) : actor ∈ electorate := by
  cases taken with
  | claimant => exact Finset.mem_singleton_self actor
  | electors _ own => exact own
  | admins _ own => exact own

theorem Snapshot.excludes_owner (taken : Snapshot prev next actor members electorate)
    (base : WellFormed prev roster members) {owner : Account} (owns : prev.owner = some owner) :
    owner ∉ electorate := by
  obtain ⟨_, owns', noAdmin, -, noElector⟩ := base.owner
  cases owns.symm.trans owns'
  intro mem
  cases taken with
  | claimant _ longest =>
    have same := Finset.mem_singleton.mp mem
    exact (longestServing_spec longest).2.1 (same ▸ owns)
  | electors => exact noElector (Finset.mem_filter.mp mem).1
  | admins =>
    have live := (Finset.mem_filter.mp mem).1
    exact noAdmin (Finmap.mem_keys.mp (Finset.mem_filter.mp live).1)

section

variable (change : Transition prev next actor members added handover) (base : WellFormed prev roster members)

include change base

theorem Transition.pollSound (isOpen : next.election = some poll) :
    PollSound next members members poll := by
  have shape := change.poll poll isOpen
  obtain ⟨sameOwner, move⟩ := change.owner_eq isOpen
  have votes : ∀ voter candidate, poll.votes.lookup voter = some candidate →
      (voter ∈ poll.electorate ∧ voter ∈ members) ∧ candidate ∈ next.admins ∧ candidate ∈ members := by
    intro voter candidate vote
    have voted : voter ∈ poll.votes.keys := Finmap.mem_keys.mpr (Finmap.mem_of_lookup_eq_some vote)
    exact ⟨⟨shape.electorate voted, shape.present voted⟩, shape.admins candidate (mem_candidates.mpr ⟨voter, vote⟩)⟩
  cases move with
  | idle _ now | closed _ _ now => cases now.symm.trans isOpen
  | opened new was now stamp none admins electors taken =>
    cases now.symm.trans isOpen
    refine ⟨shape.opened, fun owner owns => ?_, ⟨actor, taken.own, change.present⟩, votes, fun candidate => ?_⟩
    · exact taken.excludes_owner base (sameOwner ▸ owns)
    · rw [none, voters_empty, Finset.card_empty, Nat.zero_mul]
      exact Nat.zero_le _
  | voted old new was now same kept own undecided =>
    cases now.symm.trans isOpen
    have before := base.election old was
    refine ⟨shape.opened, ?_, ?_, votes, fun candidate => ?_⟩
    · rw [sameOwner, same.2]
      exact before.owner
    · rw [same.2]
      exact before.alive
    · by_cases voted : candidate ∈ candidates poll.votes
      · exact undecided candidate voted
      · -- Nobody votes for an account that is no candidate.
        have nobody : voters poll.votes candidate = ∅ := Finset.eq_empty_of_forall_notMem fun voter mem =>
          voted (mem_candidates.mpr ⟨voter, mem_voters.mp mem⟩)
        rw [nobody, Finset.card_empty, Nat.zero_mul]
        exact Nat.zero_le _

/-- A valid change never leaves the group without an owner. -/
theorem Transition.exists_owner : ∃ owner, next.owner = some owner := by
  obtain ⟨owner, owns, -⟩ := base.owner
  cases change.ownership with
  | byOwner _ heir => exact heir.elim (fun same => ⟨owner, same.trans owns⟩) fun ⟨heir, owns, _⟩ => ⟨heir, owns⟩
  | kept _ same => exact ⟨owner, same.trans owns⟩
  | won _ winner _ _ _ _ owns => exact ⟨winner, owns⟩

end

/-- A valid change from a pruned state leads to a well-formed one. -/
theorem Transition.wellFormed (change : Transition (baseOf prev before after) next actor after (after \ before) handover)
    (base : WellFormed (baseOf prev before after) (before ∩ after) after) : WellFormed next after after := by
  obtain ⟨owner, owns⟩ := change.exists_owner base
  have shape := change.shape
  have stamps := change.stamps
  refine {
    owner := ⟨owner, owns, (shape.owner owner owns).1, (shape.owner owner owns).2,
      fun elector => (shape.owner owner owns).1 (shape.electors owner elector)⟩
    disjoint := shape.disjoint
    electors := shape.electors
    admins := fun admin mem => change.named (Finset.mem_union_left _ (Finmap.mem_keys.mpr mem))
    moderators := fun moderator mem => change.named (Finset.mem_union_right _ mem)
    joined := fun account => ⟨fun mem => change.roster (Finmap.mem_keys.mpr mem), fun mem => ?_⟩
    ownerRev := shape.ownerRev
    seniority := fun admin since found => ?_
    joinedRev := fun mem stamp found => ?_
    channels := shape.channels
    election := fun poll isOpen => change.pollSound base isOpen }
  · by_cases there : account ∈ before
    · have kept := (base.joined account).mpr (Finset.mem_inter.mpr ⟨there, mem⟩)
      exact Finmap.mem_keys.mp (stamps.kept (Finmap.mem_keys.mpr kept))
    · exact Finmap.mem_of_lookup_eq_some (stamps.added account (Finset.mem_sdiff.mpr ⟨mem, there⟩))
  · have stamp := stamps.seniority admin (Finmap.mem_keys.mpr (Finmap.mem_of_lookup_eq_some found))
    rw [found] at stamp
    split at stamp
    · exact ((base.seniority admin since stamp.symm).trans (Nat.le_succ _)).trans change.rev.ge
    · exact (Option.some.inj stamp).le
  · have was := stamps.joined mem (Finmap.mem_keys.mpr (Finmap.mem_of_lookup_eq_some found))
    rw [found] at was
    split at was
    · exact ((base.joinedRev mem stamp was.symm).trans (Nat.le_succ _)).trans change.rev.ge
    · exact (Option.some.inj was.2).le

end Transitions

/-- Accepted commits keep the invariant. -/
theorem wellFormed_commit {group : GroupView Account} {commit : Commit Account}
    (sound : WellFormed group.state group.roster group.roster)
    (accepted : validateCommit group.state commit.next commit.committer group.roster commit.roster = .ok ()) :
    WellFormed commit.next commit.roster commit.roster := by
  rcases validateCommit_ok.mp accepted with same | ⟨-, -, handover, change⟩
  · rw [same]
    exact wellFormed_record sound
  · exact change.wellFormed (wellFormed_baseOf sound)

end Keeps

end Veritra.Governance
