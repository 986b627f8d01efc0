import Veritra.Soundness.GroupRoles

/-! # How ownership moves

Every vote in an open election was cast by its voter, in a commit of its own after the election opened; every
elector was named by an owner; and every admin who votes without electors was admin at the owner's last role
decision. These are facts about the whole history, and from them follows who can become owner.
-/

namespace Veritra.Governance

open Machine GovernanceState

variable {Account : Type} [LinearOrder Account] {account : Account}

abbrev Processed (Account : Type) := Served (GroupView Account) (Commit Account) GovernanceReject Unit

namespace Processed

variable (entry : Processed Account)

/-- The owner named this elector in its own commit. -/
def Names (elector : Account) : Prop :=
  entry.before.state.owner = some entry.call.committer ∧ elector ∉ entry.before.state.electors ∧
    elector ∈ entry.after.state.electors

/-- A role decision of the owner: its own change of a role or posting field, or the handover to it. -/
def Decides : Prop :=
  entry.answer = .ok () ∧
    (entry.before.state.owner = some entry.call.committer ∧
        ownChange (required entry.before.state entry.call.committer entry.before.roster entry.call.roster).base
          entry.after.state ∨
      entry.before.state.owner ≠ some entry.call.committer ∧ entry.after.state.owner ≠ entry.before.state.owner)

/-- The voter itself voted for the candidate. -/
def Casts (voter candidate : Account) : Prop :=
  entry.call.committer = voter ∧
    (∃ poll, entry.after.state.election = some poll ∧ poll.votes.lookup voter = some candidate) ∧
    ∀ poll, entry.before.state.election = some poll → poll.votes.lookup voter ≠ some candidate

end Processed

/-- The last role decision of an owner in the history. -/
def LastDecision (history : List (Processed Account)) (decision : Processed Account) : Prop :=
  ∃ earlier later, history = earlier ++ decision :: later ∧ decision.Decides ∧ ∀ entry ∈ later, ¬ entry.Decides

/-- Who may vote in an election that `opening` opens after `earlier`: the electors, each named by an owner; with no
elector in the roster, the admins who were admin at the owner's last role decision; with no admin in the roster, the
longest-serving member alone. -/
inductive Entitled (earlier : List (Processed Account)) (opening : Processed Account) (electorate : Finset Account) : Prop
  | electors (named : ∀ elector ∈ electorate, ∃ entry ∈ earlier, entry.Names elector)
  | admins (nobody : ∀ elector ∈ opening.before.state.electors, elector ∉ opening.call.roster)
      (senior : ∀ admin ∈ electorate, admin ∈ opening.before.state.admins ∧
        ∃ decision, LastDecision earlier decision ∧ admin ∈ decision.after.state.admins)
  | claimant (nobody : ∀ admin ∈ opening.before.state.admins, admin ∉ opening.call.roster)
      (alone : electorate = {opening.call.committer})
      (longest : longestServing opening.after.state.joined opening.call.roster opening.before.state.owner =
        some opening.call.committer)

/-- The story of an open election: who opened it with which electorate, that the electorate has been the same since,
and that each vote was cast since by its voter. -/
structure Campaign (history : List (Processed Account)) (poll : Election Account) : Prop where
  story : ∃ earlier opening later, history = earlier ++ opening :: later ∧
    opening.after.state.election = some { poll with votes := ∅ } ∧
    Entitled earlier opening poll.electorate ∧
    (∀ entry ∈ later, ∃ now, entry.after.state.election = some now ∧ now.opened = poll.opened ∧
      now.electorate = poll.electorate) ∧
    ∀ voter candidate, poll.votes.lookup voter = some candidate → ∃ entry ∈ later, entry.Casts voter candidate

section History

variable {creator : Account} {group : GroupView Account} {history : List (Processed Account)}
  {entry : Processed Account}

variable (run : GroupRun creator history group)

include run in
/-- Every elector was named by an owner's own commit. -/
theorem electors_named {elector : Account} (mem : elector ∈ group.state.electors) :
    ∃ entry ∈ history, entry.Names elector := by
  refine run.exists_entry (elector ∈ ·.state.electors) (Finset.notMem_empty elector) ?_ mem
  intro history group commit answer later _ processed mem
  obtain ⟨accepted, rfl⟩ := processCommit_ok.mp processed
  by_cases old : elector ∈ group.state.electors
  · exact .inl old
  · exact .inr ⟨elector_gained accepted mem old, old, mem⟩

theorem LastDecision.self (decides : entry.Decides) : LastDecision (history ++ [entry]) entry :=
  ⟨history, [], rfl, decides, fun _ mem => absurd mem List.not_mem_nil⟩

/-- A commit without a decision keeps the last one. -/
theorem LastDecision.append {decision : Processed Account} (last : LastDecision history decision)
    (silent : ¬ entry.Decides) : LastDecision (history ++ [entry]) decision := by
  obtain ⟨earlier, later, rfl, decides, none⟩ := last
  refine ⟨earlier, later ++ [entry], by simp, decides, fun other mem => ?_⟩
  rcases List.mem_append.mp mem with mem | mem
  · exact none other mem
  · exact List.mem_singleton.mp mem ▸ silent

/-- The stamp of an admin is an old one or of the new revision. -/
theorem seniority_of_accepted {prev next : GovernanceState Account} {committer admin : Account}
    {before after : Finset Account} {since : ℕ} (accepted : validateCommit prev next committer before after = .ok ())
    (found : next.admins.lookup admin = some since) :
    prev.admins.lookup admin = some since ∨ since = prev.rev + 1 := by
  rcases bare_or_change accepted with bare | ⟨handover, change⟩
  · rw [bare.admins] at found
    exact .inl (lookup_baseOf_admins.mp found).1
  · have stamp := change.stamps.seniority admin (Finmap.mem_keys.mpr (Finmap.mem_of_lookup_eq_some found))
    rw [found] at stamp
    split at stamp
    · exact .inl (lookup_baseOf_admins.mp stamp.symm).1
    · exact .inr ((Option.some.inj stamp).trans (change.rev.trans (congrArg (· + 1) baseOf_rev)))

include run in
/-- An admin whose seniority reaches back to the owner's last decision was admin right after it. -/
theorem seniors_decided :
    ∀ admin since, group.state.admins.lookup admin = some since → since ≤ group.state.ownerRev →
      ∃ decision, LastDecision history decision ∧ admin ∈ decision.after.state.admins := by
  refine run.preserves_history
    (fun history group => ∀ admin since, group.state.admins.lookup admin = some since →
      since ≤ group.state.ownerRev → ∃ decision, LastDecision history decision ∧ admin ∈ decision.after.state.admins)
    (fun admin since found => absurd found (Finmap.lookup_empty admin ▸ nofun)) ?_ ?_
  · intro history group commit answer later reached _ senior processed admin since found early
    obtain ⟨accepted, rfl⟩ := processCommit_ok.mp processed
    rcases Classical.em (Processed.Decides ⟨group, commit, .ok answer, ⟨commit.next, commit.roster⟩⟩)
      with decides | decides
    · exact ⟨_, .self decides, Finmap.mem_of_lookup_eq_some found⟩
    · -- Without a decision the owner revision stays, so a new admin is too late.
      have same : commit.next.ownerRev = group.state.ownerRev := by
        by_contra moved
        exact decides ⟨rfl, (ownerRev_moved accepted moved).2.2⟩
      have bound := (wellFormed_of_run reached).ownerRev
      rcases seniority_of_accepted accepted found with old | new
      · obtain ⟨decision, last, there⟩ := senior admin since old (same ▸ early)
        exact ⟨decision, last.append decides, there⟩
      · have late : commit.next.ownerRev < since := by rw [same, new]; exact Nat.lt_succ_of_le bound
        exact absurd early (Nat.not_le_of_lt late)
  · intro history group commit refusal _ _ senior _ admin since found early
    obtain ⟨decision, last, there⟩ := senior admin since found early
    exact ⟨decision, last.append (fun decides => nomatch decides.1), there⟩

/-- A commit during the election: it keeps the electorate, and whatever vote it adds is the committer's own. -/
theorem Campaign.append {old poll : Election Account} (campaign : Campaign history old)
    (isOpen : entry.after.state.election = some poll) (opened : poll.opened = old.opened)
    (electorate : poll.electorate = old.electorate)
    (votes : ∀ voter candidate, poll.votes.lookup voter = some candidate →
      old.votes.lookup voter = some candidate ∨ entry.Casts voter candidate) : Campaign (history ++ [entry]) poll := by
  obtain ⟨earlier, opening, later, rfl, start, entitled, steady, cast⟩ := campaign.story
  refine ⟨earlier, opening, later ++ [entry], by simp, ?_, electorate ▸ entitled, fun other mem => ?_,
    fun voter candidate vote => ?_⟩
  · rw [start, opened, electorate]
  · rcases List.mem_append.mp mem with mem | mem
    · rw [opened, electorate]
      exact steady other mem
    · rw [List.mem_singleton.mp mem]
      exact ⟨poll, isOpen, rfl, rfl⟩
  · rcases votes voter candidate vote with before | now
    · obtain ⟨other, mem, casts⟩ := cast voter candidate before
      exact ⟨other, List.mem_append_left _ mem, casts⟩
    · exact ⟨entry, List.mem_concat_self, now⟩

section Snapshots

variable {commit : Commit Account}

omit [LinearOrder Account] in
/-- An account that is in the roster after a commit is not pruned by it. -/
theorem not_gone {before after : Finset Account} (present : account ∈ after) :
    ¬ (account ∈ before ∧ account ∉ after) := fun gone => gone.2 present

/-- With no live admin after pruning, no admin was in the roster. -/
theorem no_admin_present {prev : GovernanceState Account} {before after : Finset Account}
    (nobody : (baseOf prev before after).liveAdmins after = ∅) : ∀ admin ∈ prev.admins, admin ∉ after := by
  intro admin mem present
  have live : admin ∈ (baseOf prev before after).liveAdmins after :=
    Finset.mem_filter.mpr ⟨Finmap.mem_keys.mpr (mem_baseOf_admins.mpr ⟨mem, not_gone present⟩), present⟩
  rw [nobody] at live
  exact Finset.notMem_empty admin live

include run in
theorem Snapshot.entitled {electorate : Finset Account}
    (taken : Snapshot (baseOf group.state group.roster commit.roster) commit.next commit.committer commit.roster
      electorate) (answer : Except GovernanceReject Unit) :
    Entitled history ⟨group, commit, answer, ⟨commit.next, commit.roster⟩⟩ electorate := by
  cases taken with
  | claimant nobody longest =>
    rw [baseOf_owner] at longest
    exact .claimant (no_admin_present nobody) rfl longest
  | electors _ own =>
    refine .electors fun elector mem => electors_named run ?_
    exact (mem_baseOf_electors.mp (Finset.mem_filter.mp mem).1).1
  | admins nobody own =>
    refine .admins (fun elector mem present => ?_) fun admin mem => ?_
    · have live : elector ∈ (baseOf group.state group.roster commit.roster).liveElectors commit.roster :=
        Finset.mem_filter.mpr ⟨mem_baseOf_electors.mpr ⟨mem, not_gone present⟩, present⟩
      rw [nobody] at live
      exact Finset.notMem_empty elector live
    · obtain ⟨live, since, found, early⟩ := Finset.mem_filter.mp mem
      have found := (lookup_baseOf_admins.mp found).1
      rw [baseOf_ownerRev] at early
      exact ⟨Finmap.mem_of_lookup_eq_some found, seniors_decided run admin since found early⟩

end Snapshots

include run in
/-- Every open election has its story. -/
theorem campaign_of_run : ∀ poll, group.state.election = some poll → Campaign history poll := by
  refine run.preserves_history (fun history group => ∀ poll, group.state.election = some poll → Campaign history poll)
    nofun ?_ ?_
  · intro history group commit answer later reached _ campaign processed poll isOpen
    obtain ⟨accepted, rfl⟩ := processCommit_ok.mp processed
    rcases bare_or_change accepted with bare | ⟨handover, change⟩
    · obtain ⟨old, was, opened, electorate, -, votes⟩ := baseOf_election (bare.election poll isOpen)
      exact (campaign old was).append isOpen opened electorate fun voter candidate vote =>
        .inl ((votes voter candidate).mp vote).1
    · cases (change.owner_eq isOpen).2 with
      | idle _ now | closed _ _ now => cases now.symm.trans isOpen
      | opened new was now stamp none admins electors taken =>
        cases now.symm.trans isOpen
        refine ⟨history, _, [], rfl, isOpen.trans (none ▸ rfl), taken.entitled reached (.ok answer),
          fun _ mem => absurd mem List.not_mem_nil, fun voter candidate vote => ?_⟩
        rw [none, Finmap.lookup_empty] at vote
        cases vote
      | voted pruned new was now same kept own undecided =>
        cases now.symm.trans isOpen
        obtain ⟨old, before, opened, electorate, -, votes⟩ := baseOf_election was
        refine (campaign old before).append isOpen (same.1.trans opened) (same.2.trans electorate)
          fun voter candidate vote => ?_
        by_cases already : voter ∈ pruned.votes
        · rw [kept voter (Finmap.mem_keys.mpr already)] at vote
          exact .inl ((votes voter candidate).mp vote).1
        · have voter_eq := own voter (Finmap.mem_keys.mpr (Finmap.mem_of_lookup_eq_some vote)) already
          subst voter_eq
          refine .inr ⟨rfl, ⟨poll, isOpen, vote⟩, fun earlier there had => already ?_⟩
          cases before.symm.trans there
          have present := ((change.poll poll isOpen).admins candidate (mem_candidates.mpr ⟨_, vote⟩)).2
          exact Finmap.mem_of_lookup_eq_some
            ((votes _ candidate).mpr ⟨had, not_gone change.present, not_gone present⟩)
  · intro history group commit refusal _ _ campaign _ poll isOpen
    exact (campaign poll isOpen).append isOpen rfl rfl fun voter candidate => .inl

end History

/-- How a commit may change the owner. -/
inductive OwnerMove (history : List (Processed Account)) (group : GroupView Account) (commit : Commit Account) : Prop
  /-- The owner itself hands over to an admin in the roster. -/
  | transferred (heir : Account) (own : group.state.owner = some commit.committer) (new : commit.next.owner = some heir)
      (admin : group.state.roleOf heir = .admin) (present : heir ∈ group.roster ∧ heir ∈ commit.roster)
  /-- More than half of the electorate has voted for the new owner, each in its own commit since the election opened,
  and the committer's vote decides. -/
  | elected (poll : Election Account) (winner : Account) (supporters : Finset Account)
      (isOpen : group.state.election = some poll) (new : commit.next.owner = some winner)
      (inside : supporters ⊆ poll.electorate) (majority : poll.electorate.card < supporters.card * 2)
      (own : commit.committer ∈ supporters)
      (deciding : (supporters.erase commit.committer).card * 2 ≤ poll.electorate.card)
      (cast : ∃ earlier opening later, history = earlier ++ opening :: later ∧
        opening.after.state.election = some { poll with votes := ∅ } ∧
        ∀ voter ∈ supporters.erase commit.committer, ∃ entry ∈ later, entry.Casts voter winner)
  /-- With no admin in the roster, the longest-serving member takes over. -/
  | claimed (nobody : ∀ admin ∈ group.state.admins, admin ∉ commit.roster)
      (self : commit.next.owner = some commit.committer) (other : group.state.owner ≠ some commit.committer)
      (longest : ∀ mem ∈ commit.roster, group.state.owner ≠ some mem →
        service commit.next.joined commit.committer ≤ service commit.next.joined mem)

section Owner

variable {creator : Account} {group : GroupView Account} {history : List (Processed Account)} {commit : Commit Account}

theorem mem_admins_of_roleOf {state : GovernanceState Account} (role : state.roleOf account = .admin) :
    account ∈ state.admins := by
  unfold roleOf at role
  split at role
  · cases role
  · split at role
    · next admin => exact admin
    · split at role <;> cases role

theorem ownerMove_of_win (run : GroupRun creator history group) {poll : Election Account} {winner : Account}
    (was : (baseOf group.state group.roster commit.roster).election = some poll)
    (owns : commit.next.owner = some winner) (own : commit.committer ∈ poll.electorate)
    (other : group.state.owner ≠ some commit.committer)
    (mandate : Mandate (baseOf group.state group.roster commit.roster) commit.next commit.committer commit.roster poll
      winner) : OwnerMove history group commit := by
  cases mandate with
  | claim nobody alone self votes longest =>
    subst self
    rw [baseOf_owner] at longest
    exact .claimed (no_admin_present nobody) owns other (longestServing_spec longest).2.2
  | majority unvoted admin more =>
    have sound := (wellFormed_baseOf (wellFormed_of_run run)).election poll was
    obtain ⟨old, before, opened, electorate, -, votes⟩ := baseOf_election was
    have absent : commit.committer ∉ voters poll.votes winner := fun mem =>
      unvoted (Finmap.mem_of_lookup_eq_some (mem_voters.mp mem))
    refine .elected old winner (insert commit.committer (voters poll.votes winner)) before owns ?_ ?_
      (Finset.mem_insert_self _ _) ?_ ?_
    · intro voter mem
      rw [← electorate]
      rcases Finset.mem_insert.mp mem with rfl | voted
      · exact own
      · exact (sound.votes voter winner (mem_voters.mp voted)).1.1
    · rw [Finset.card_insert_of_notMem absent, ← electorate]
      exact more
    · rw [Finset.erase_insert absent, ← electorate]
      exact sound.undecided winner
    · obtain ⟨earlier, opening, later, split, start, -, -, cast⟩ := (campaign_of_run run old before).story
      refine ⟨earlier, opening, later, split, start, fun voter mem => cast voter winner ?_⟩
      rw [Finset.erase_insert absent] at mem
      exact ((votes voter winner).mp (mem_voters.mp mem)).1

end Owner

/-- Over every run the owner changes only by a transfer of the owner to an admin in the roster, by the deciding vote of
an election, or by the claim of the longest-serving member when no admin is in the roster. The electorate of an election
is the same as long as it is open, everybody in it was entitled when it opened, and every vote was cast by its voter. -/
theorem ownership_moves_legitimately {creator : Account} {group later : GroupView Account} {commit : Commit Account}
    {history : List (Processed Account)} {answer : Unit} (run : GroupRun creator history group)
    (processed : processCommit group commit = .ok (answer, later)) :
    (later.state.owner ≠ group.state.owner → OwnerMove history group commit) ∧
      ∀ poll, group.state.election = some poll → Campaign history poll := by
  refine ⟨fun changed => ?_, campaign_of_run run⟩
  obtain ⟨accepted, rfl⟩ := processCommit_ok.mp processed
  rcases bare_or_change accepted with bare | ⟨handover, change⟩
  · exact absurd bare.owner changed
  cases change.ownership with
  | byOwner own heir closed =>
    obtain same | ⟨heir, owns, admin, present⟩ := heir
    · exact absurd (same.trans baseOf_owner) changed
    · rw [roleOf_baseOf (not_gone present)] at admin
      have there := (wellFormed_of_run run).admins heir (mem_admins_of_roleOf admin)
      exact .transferred heir (baseOf_owner.symm.trans own) owns admin ⟨there, present⟩
  | kept _ same => exact absurd (same.trans baseOf_owner) changed
  | won poll winner other _ was closed owns own mandate =>
    exact ownerMove_of_win run was owns own (fun same => other (baseOf_owner.trans same)) mandate

open Example in
theorem ownership_moves_by_vote :
    won.next.owner ≠ contested.state.owner ∧
      OwnerMove (execHistory processCommit (GroupView.genesis 1) campaign) contested won := by
  have processed : processCommit contested won = .ok ((), ⟨won.next, won.roster⟩) := by decide +kernel
  have changed : won.next.owner ≠ contested.state.owner := by decide +kernel
  exact ⟨changed, (ownership_moves_legitimately contested_run processed).1 changed⟩

end Veritra.Governance
