import Veritra.Soundness.GroupRoles

/-! # A silent owner never locks a group

From every reachable state the other members can replace the owner without it and without a roster change. If an
election is open, somebody of its snapshot closes it. Then the admins step down one after the other, and the
longest-serving member opens a claim and takes over.

Anyone else may give up its role at any time, except a candidate of an open election in whose snapshot it is not.
-/

namespace Veritra.Governance

open Machine GovernanceState

variable {Account : Type} [LinearOrder Account]

section Quiet

variable {state next later : GovernanceState Account} {roster : Finset Account} {actor owner : Account} {handover : Bool}

section

variable (sound : WellFormed state roster roster)

include sound

theorem baseOf_self : baseOf state roster roster = state := by
  unfold baseOf
  rw [Finset.sdiff_self, Finset.empty_val, prune_zero]
  unfold clearDeadElection
  split
  · next poll isOpen =>
    obtain ⟨elector, inside, present⟩ := (sound.election poll isOpen).alive
    rw [if_neg fun disjoint => Finset.disjoint_left.mp disjoint inside present]
  · rfl

/-- A commit of somebody other than the owner owes no record. -/
theorem record_self (other : state.owner ≠ some actor) :
    (required state actor roster roster).record = state := by
  rw [required_record, baseOf_self sound, if_neg]
  rintro (⟨account, mem⟩ | ⟨own, -⟩)
  · rw [Finset.sdiff_self] at mem
    exact Finset.notMem_empty account mem
  · exact other own

theorem accepts_change (other : state.owner ≠ some actor)
    (change : Transition state next actor roster ∅ handover) :
    processCommit ⟨state, roster⟩ ⟨actor, next, roster⟩ = .ok ((), ⟨next, roster⟩) := by
  have newer : next ≠ state := fun same => by
    have rev := change.rev
    rw [same] at rev
    exact Nat.ne_of_lt (Nat.lt_succ_self _) rev
  refine processCommit_ok.mpr ⟨validateCommit_ok.mpr (.inr ⟨?_, newer, handover, ?_⟩), rfl⟩
  · rw [record_self sound other]
    exact newer
  · rw [baseOf_self sound, Finset.sdiff_self]
    exact change

end

/-- A commit of somebody other than the owner that keeps the roster. -/
def Quiet (owner : Account) (roster : Finset Account)
    (entry : Served (GroupView Account) (Commit Account) GovernanceReject Unit) : Prop :=
  entry.answer = .ok () ∧ entry.call.committer ≠ owner ∧ entry.call.roster = roster

/-- Members other than the owner can lead the group there. -/
def Leads (owner : Account) (roster : Finset Account) (state later : GovernanceState Account) : Prop :=
  ∃ history, Run processCommit byMember ⟨state, roster⟩ history ⟨later, roster⟩ ∧
    ∀ entry ∈ history, Quiet owner roster entry

theorem Leads.refl : Leads owner roster state state := ⟨[], .start, fun _ mem => absurd mem List.not_mem_nil⟩

theorem Leads.trans {middle : GovernanceState Account} (first : Leads owner roster state middle)
    (second : Leads owner roster middle later) : Leads owner roster state later := by
  obtain ⟨history, run, quiet⟩ := first
  obtain ⟨more, rest, quiet'⟩ := second
  refine ⟨history ++ more, run.trans rest, fun entry mem => ?_⟩
  exact (List.mem_append.mp mem).elim (quiet entry) (quiet' entry)

theorem Leads.change (sound : WellFormed state roster roster) (owns : state.owner = some owner) (other : actor ≠ owner)
    (change : Transition state next actor roster ∅ handover) : Leads owner roster state next := by
  have processed := accepts_change sound (fun own => other (Option.some.inj (own.symm.trans owns))) change
  refine ⟨_, .once processed ⟨change.present, change.present⟩, fun entry mem => ?_⟩
  rw [List.mem_singleton.mp mem]
  exact ⟨rfl, other, rfl⟩

theorem WellFormed.of_leads (sound : WellFormed state roster roster)
    (leads : Leads owner roster state later) : WellFormed later roster roster := by
  obtain ⟨history, run, -⟩ := leads
  refine run.preserves (fun group => WellFormed group.state group.roster group.roster) sound ?_
  intro group commit answer after _ sound processed
  obtain ⟨accepted, rfl⟩ := processCommit_ok.mp processed
  exact wellFormed_commit sound accepted

end Quiet

section Steps

variable {state next : GovernanceState Account} {roster : Finset Account} {actor owner admin claimant account : Account}
  {poll : Election Account}

theorem roleReject_of_same (same : state.roleOf account = next.roleOf account) :
    roleReject state next actor account = none := by
  exact if_pos same

theorem roleOf_admin (sound : WellFormed state roster roster) (mem : admin ∈ state.admins) :
    state.roleOf admin = .admin := by
  obtain ⟨owner, owns, apart, -⟩ := sound.owner
  unfold roleOf
  rw [if_neg fun own => apart (Option.some.inj (owns.symm.trans own) ▸ mem), if_pos mem]

/-- What a change shares with the state it starts from when it leaves `joined` and the posting fields alone. -/
theorem Stamped.of_kept (joined : next.joined = state.joined) (seniority : ∀ admin ∈ next.admins.keys,
      next.admins.lookup admin = if state.roleOf admin = .admin then state.admins.lookup admin else some next.rev) :
    Stamped state next ∅ := by
  refine ⟨seniority, joined ▸ Finset.Subset.refl _, fun mem there => ?_,
    fun account mem => absurd mem (Finset.notMem_empty account)⟩
  rw [joined] at there ⊢
  rw [if_pos (Finmap.mem_keys.mp there)]

section

variable (sound : WellFormed state roster roster)
include sound

theorem joined_subset : state.joined.keys ⊆ roster := fun account mem =>
  (sound.joined account).mp (Finmap.mem_keys.mp mem)

theorem named_subset : state.named ⊆ roster := fun account mem =>
  (Finset.mem_union.mp mem).elim (fun admin => sound.admins account (Finmap.mem_keys.mp admin))
    (sound.moderators account)

/-- A change of the election only. -/
theorem transition_election (present : actor ∈ roster)
    (other : state.owner ≠ some actor) (election : Option (Election Account))
    (poll : ∀ poll, election = some poll → PollShape { state with rev := state.rev + 1, election } roster poll)
    (move : ElectionMove state { state with rev := state.rev + 1, election } actor roster) :
    Transition state { state with rev := state.rev + 1, election } actor roster ∅ false := by
  obtain ⟨owner, owns, noAdmin, noModerator, -⟩ := sound.owner
  have named : state.named ⊆ roster := named_subset sound
  have joined : state.joined.keys ⊆ roster := joined_subset sound
  exact {
    rev := rfl
    shape := {
      owner := fun other own => Option.some.inj (owns.symm.trans own) ▸ ⟨noAdmin, noModerator⟩
      disjoint := sound.disjoint
      electors := sound.electors
      ownerRev := sound.ownerRev.trans (Nat.le_succ _)
      channels := sound.channels }
    named := named
    present := present
    roster := joined
    stamps := .of_kept rfl fun admin mem => (if_pos (roleOf_admin sound (Finmap.mem_keys.mp mem))).symm
    poll := poll
    posting := .inl ⟨rfl, rfl⟩
    electors := ⟨fun elector mem => absurd mem (by simp), fun elector mem => absurd mem (by simp)⟩
    ownership := .kept other rfl move
    ownerRev := (if_neg fun reason => reason.elim nofun fun own => other own.1).symm
    roles := fun _ account _ => roleReject_of_same rfl }

/-- Somebody of the snapshot closes an open election. -/
theorem leads_close (owns : state.owner = some owner) :
    ∃ later, Leads owner roster state later ∧ later.owner = some owner ∧ later.election = none := by
  cases isOpen : state.election with
  | none => exact ⟨state, .refl, owns, isOpen⟩
  | some poll =>
    have pollSound := sound.election poll isOpen
    obtain ⟨elector, inside, present⟩ := pollSound.alive
    have apart : elector ≠ owner := fun same => pollSound.owner owner owns (same ▸ inside)
    have other : state.owner ≠ some elector := fun own => apart (Option.some.inj (own.symm.trans owns))
    have change := transition_election sound present other none nofun (.closed poll isOpen rfl inside)
    exact ⟨_, .change sound owns apart change, owns, rfl⟩

end

/-- The state after a member gave up its role. An election in whose snapshot it is ends with that. -/
def relinquished (state : GovernanceState Account) (account : Account) : GovernanceState Account :=
  { state with
    rev := state.rev + 1
    admins := state.admins.erase account
    moderators := state.moderators.erase account
    electors := state.electors.erase account
    election := state.election.filter fun poll => account ∉ poll.electorate }

theorem roleOf_relinquished {other : Account} (apart : other ≠ account) :
    (relinquished state account).roleOf other = state.roleOf other :=
  roleOf_congr Iff.rfl (Finmap.mem_erase.trans (and_iff_right apart)) (Finset.mem_erase.trans (and_iff_right apart))

theorem roleOf_relinquished_self (other : state.owner ≠ some actor) :
    (relinquished state actor).roleOf actor = .member := by
  unfold roleOf relinquished
  rw [if_neg other, if_neg fun there => (Finmap.mem_erase.mp there).1 rfl, if_neg (Finset.notMem_erase actor _)]

section

variable (sound : WellFormed state roster roster)
include sound

/-- The candidates of the elections that stay open are still admins. -/
theorem pollShape_relinquished
    (free : ∀ poll ∈ state.election, actor ∈ candidates poll.votes → actor ∈ poll.electorate)
    (isOpen : (relinquished state actor).election = some poll) :
    PollShape (relinquished state actor) roster poll := by
  obtain ⟨was, outside⟩ := Option.filter_eq_some_iff.mp isOpen
  have outside := of_decide_eq_true outside
  have pollSound := sound.election poll was
  obtain ⟨elector, inside, -⟩ := pollSound.alive
  have vote : ∀ voter ∈ poll.votes.keys, voter ∈ poll.electorate ∧ voter ∈ roster := fun voter mem => by
    obtain ⟨candidate, found⟩ := Finmap.mem_iff.mp (Finmap.mem_keys.mp mem)
    exact (pollSound.votes voter candidate found).1
  refine ⟨pollSound.opened.trans (Nat.le_succ _), ⟨elector, inside⟩, fun voter mem => (vote voter mem).1,
    fun voter mem => (vote voter mem).2, fun candidate mem => ?_⟩
  obtain ⟨voter, found⟩ := mem_candidates.mp mem
  obtain ⟨-, admin, present⟩ := pollSound.votes voter candidate found
  refine ⟨Finmap.mem_erase.mpr ⟨?_, admin⟩, present⟩
  rintro rfl
  exact outside (free poll was mem)

/-- Who steps down closes the election if it may, and leaves it as it is otherwise. -/
theorem electionMove_relinquished : ElectionMove state (relinquished state actor) actor roster := by
  cases was : state.election with
  | none =>
    have now : (relinquished state actor).election = none := by rw [relinquished, was]; rfl
    exact .idle was now
  | some poll =>
    by_cases own : actor ∈ poll.electorate
    · have now : (relinquished state actor).election = none := by simp [relinquished, was, own]
      exact .closed poll was now own
    · have now : (relinquished state actor).election = some poll := by simp [relinquished, was, own]
      exact .voted poll poll was now ⟨rfl, rfl⟩ (fun _ _ => rfl)
        (fun voter mem new => absurd (Finmap.mem_keys.mp mem) new)
        fun candidate _ => (sound.election poll was).undecided candidate

/-- A member that is no candidate, or can close the election, may step down. -/
theorem transition_relinquished (present : actor ∈ roster) (other : state.owner ≠ some actor)
    (free : ∀ poll ∈ state.election, actor ∈ candidates poll.votes → actor ∈ poll.electorate) :
    Transition state (relinquished state actor) actor roster ∅ false := by
  obtain ⟨owner, owns, noAdmin, noModerator, -⟩ := sound.owner
  have left : ∀ {account}, account ∈ (relinquished state actor).admins → account ∈ state.admins ∧ account ≠ actor :=
    fun there => ⟨(Finmap.mem_erase.mp there).2, (Finmap.mem_erase.mp there).1⟩
  have joined : state.joined.keys ⊆ roster := joined_subset sound
  exact {
    rev := rfl
    shape := {
      owner := fun other own => by
        cases owns.symm.trans own
        exact ⟨fun there => noAdmin (left there).1, fun there => noModerator (Finset.mem_of_mem_erase there)⟩
      disjoint := fun moderator there admin =>
        sound.disjoint moderator (Finset.mem_of_mem_erase there) (left admin).1
      electors := fun elector there => Finmap.mem_erase.mpr
        ⟨Finset.ne_of_mem_erase there, sound.electors elector (Finset.mem_of_mem_erase there)⟩
      ownerRev := sound.ownerRev.trans (Nat.le_succ _)
      channels := sound.channels }
    named := fun account there => (Finset.mem_union.mp there).elim
      (fun admin => sound.admins account (left (Finmap.mem_keys.mp admin)).1)
      fun moderator => sound.moderators account (Finset.mem_of_mem_erase moderator)
    present := present
    roster := joined
    stamps := .of_kept rfl fun account there => by
      obtain ⟨was, apart⟩ := left (Finmap.mem_keys.mp there)
      rw [if_pos (roleOf_admin sound was)]
      exact Finmap.lookup_erase_ne apart
    poll := fun poll isOpen => pollShape_relinquished sound free isOpen
    posting := .inl ⟨rfl, rfl⟩
    electors := by
      refine ⟨fun elector gained => ?_, fun elector lost kept => ?_⟩
      · obtain ⟨there, new⟩ := Finset.mem_sdiff.mp gained
        exact absurd (Finset.mem_of_mem_erase there) new
      · obtain ⟨was, gone⟩ := Finset.mem_sdiff.mp lost
        exact absurd (Finset.mem_erase.mpr ⟨(left kept).2, was⟩) gone
    ownership := .kept other rfl (electionMove_relinquished sound)
    ownerRev := (if_neg fun reason => reason.elim nofun fun own => other own.1).symm
    roles := fun _ account _ => by
      by_cases own : account = actor
      · -- The member itself has the lowest role now.
        subst own
        unfold roleReject
        rw [roleOf_relinquished_self other]
        cases state.roleOf account <;> simp [relinquished, BuiltInRole.rank]
      · exact roleReject_of_same (roleOf_relinquished own).symm }

/-- A candidate outside the snapshot of the open election stays an admin in every commit of its own. -/
theorem candidate_stays_admin (other : state.owner ≠ some actor)
    (isOpen : state.election = some poll) (candidate : actor ∈ candidates poll.votes)
    (outside : actor ∉ poll.electorate)
    (accepted : validateCommit state next actor roster roster = .ok ()) : actor ∈ next.admins := by
  obtain ⟨voter, vote⟩ := mem_candidates.mp candidate
  rcases validateCommit_ok.mp accepted with same | ⟨-, -, handover, change⟩
  · rw [same, record_self sound other]
    exact ((sound.election poll isOpen).votes voter actor vote).2.1
  · rw [baseOf_self sound] at change
    cases change.ownership with
    | byOwner own => exact absurd own other
    | won poll' winner _ _ was _ _ own => exact absurd own (by cases isOpen.symm.trans was; exact outside)
    | kept _ _ move =>
      cases move with
      | idle was | opened _ was => cases isOpen.symm.trans was
      | closed poll' was _ own => exact absurd own (by cases isOpen.symm.trans was; exact outside)
      | voted old new was now _ kept =>
        cases isOpen.symm.trans was
        have still := kept voter (Finmap.mem_keys.mpr (Finmap.mem_of_lookup_eq_some vote))
        exact ((change.poll new now).admins actor (mem_candidates.mpr ⟨voter, still.trans vote⟩)).1

/-- Who may give up its role is no candidate, or can close the election. -/
theorem free_of_member (other : state.owner ≠ some actor)
    (accepted : validateCommit state next actor roster roster = .ok ()) (role : next.roleOf actor = .member) :
    ∀ poll ∈ state.election, actor ∈ candidates poll.votes → actor ∈ poll.electorate := by
  intro poll isOpen candidate
  by_contra outside
  have admin := candidate_stays_admin sound other isOpen candidate outside accepted
  unfold roleOf at role
  rw [if_pos admin] at role
  split at role <;> cases role

/-- All admins step down, one after the other. -/
theorem leads_no_admins (owns : state.owner = some owner) (closed : state.election = none) :
    ∃ later, Leads owner roster state later ∧ later.owner = some owner ∧ later.election = none ∧ later.admins = ∅ := by
  -- The number of admins falls with each step.
  induction size : state.admins.keys.card generalizing state with
  | zero =>
    refine ⟨state, .refl, owns, closed, Finmap.ext_lookup fun account => ?_⟩
    have nobody := Finset.card_eq_zero.mp size
    rw [Finmap.lookup_empty, Finmap.lookup_eq_none, ← Finmap.mem_keys, nobody]
    exact Finset.notMem_empty account
  | succ count ih =>
    have nonempty : 0 < state.admins.keys.card := by rw [size]; exact Nat.succ_pos count
    obtain ⟨admin, there⟩ := Finset.card_pos.mp nonempty
    have mem := Finmap.mem_keys.mp there
    have apart : admin ≠ owner := by
      rintro rfl
      obtain ⟨_, owns', noAdmin, -⟩ := sound.owner
      cases owns.symm.trans owns'
      exact noAdmin mem
    have other : state.owner ≠ some admin := fun own => apart (Option.some.inj (own.symm.trans owns))
    have step : Leads owner roster state (relinquished state admin) :=
      .change sound owns apart (transition_relinquished sound (sound.admins admin mem) other (by simp [closed]))
    have fewer : (relinquished state admin).admins.keys.card = count := by
      rw [relinquished, Finmap.keys_erase, Finset.card_erase_of_mem there, size, Nat.add_sub_cancel]
    obtain ⟨later, leads, rest⟩ := ih (sound.of_leads step) owns (by rw [relinquished, closed]; rfl) fewer
    exact ⟨later, step.trans leads, rest⟩

end

/-- The claim of the longest-serving member. -/
def claim (state : GovernanceState Account) (claimant : Account) : Election Account :=
  ⟨state.rev + 1, {claimant}, ∅⟩

/-- With no admin and no election, the longest-serving member opens its claim. -/
theorem transition_claim (sound : WellFormed state roster roster) (closed : state.election = none)
    (nobody : state.admins = ∅)
    (longest : longestServing state.joined roster state.owner = some claimant) :
    Transition state { state with rev := state.rev + 1, election := some (claim state claimant) } claimant roster ∅
      false := by
  obtain ⟨present, other, -⟩ := longestServing_spec longest
  have empty : state.liveAdmins roster = ∅ := by
    unfold liveAdmins
    rw [nobody, Finmap.keys_empty, Finset.filter_empty]
  refine transition_election sound present other _ ?_ ?_
  · intro poll same
    cases same
    exact {
      opened := Nat.le_refl _
      nonempty := ⟨claimant, Finset.mem_singleton_self claimant⟩
      electorate := Finset.empty_subset _
      present := Finset.empty_subset _
      admins := fun candidate mem => absurd mem (Finset.notMem_empty candidate) }
  · exact .opened (claim state claimant) closed rfl rfl rfl rfl rfl (.claimant empty longest)

/-- The state after the claimant took over. -/
def claimed (state : GovernanceState Account) (roster : Finset Account) (claimant : Account) : GovernanceState Account :=
  { state with
    rev := state.rev + 1
    owner := some claimant
    ownerRev := state.rev + 1
    election := none
    admins := adminsAfterWin state roster claimant (state.rev + 1)
    electors := state.electors \ {claimant}
    moderators := state.moderators \ {claimant} }

/-- Without admins, only the old owner is admin after a claim. -/
theorem lookup_adminsAfterWin (nobody : state.admins = ∅) {winner : Account} {rev since : ℕ}
    (found : (adminsAfterWin state roster winner rev).lookup admin = some since) :
    state.owner = some admin ∧ admin ∈ roster ∧ since = rev := by
  have erased : ∀ account, (state.admins.erase winner).lookup account = none := fun account => by
    rw [nobody, Finmap.lookup_eq_none, Finmap.mem_erase]
    exact fun there => Finmap.notMem_empty there.2
  unfold adminsAfterWin at found
  split at found
  · next old owns =>
    split at found
    · next present =>
      by_cases same : admin = old
      · subst same
        rw [Finmap.lookup_insert] at found
        exact ⟨owns, present, (Option.some.inj found).symm⟩
      · rw [Finmap.lookup_insert_of_ne _ same, erased] at found
        cases found
    · rw [erased] at found
      cases found
  · rw [erased] at found
    cases found

/-- The claimant takes over. -/
theorem transition_claimed (sound : WellFormed state roster roster)
    (nobody : state.admins = ∅) (isOpen : state.election = some poll) (alone : poll.electorate = {claimant})
    (votes : poll.votes = ∅) (longest : longestServing state.joined roster state.owner = some claimant) :
    Transition state (claimed state roster claimant) claimant roster ∅ true := by
  obtain ⟨present, other, -⟩ := longestServing_spec longest
  obtain ⟨owner, owns, -, noModerator, noElector⟩ := sound.owner
  have empty : state.liveAdmins roster = ∅ := by
    unfold liveAdmins
    rw [nobody, Finmap.keys_empty, Finset.filter_empty]
  have noElectors : state.electors = ∅ := Finset.eq_empty_of_forall_notMem fun elector mem =>
    Finmap.notMem_empty (nobody ▸ sound.electors elector mem)
  have admin : ∀ {account}, account ∈ (claimed state roster claimant).admins →
      state.owner = some account ∧ account ∈ roster := fun there => by
    obtain ⟨since, found⟩ := Finmap.mem_iff.mp there
    exact ⟨(lookup_adminsAfterWin nobody found).1, (lookup_adminsAfterWin nobody found).2.1⟩
  have joined : state.joined.keys ⊆ roster := joined_subset sound
  exact {
    rev := rfl
    shape := {
      owner := fun account own => by
        cases own
        exact ⟨fun there => other (admin there).1, fun there => (Finset.mem_sdiff.mp there).2 (Finset.mem_singleton_self _)⟩
      disjoint := fun moderator there isAdmin => by
        cases owns.symm.trans (admin isAdmin).1
        exact noModerator (Finset.mem_sdiff.mp there).1
      electors := fun elector there => by
        have was := (Finset.mem_sdiff.mp there).1
        rw [noElectors] at was
        exact absurd was (Finset.notMem_empty elector)
      ownerRev := Nat.le_refl _
      channels := sound.channels }
    named := fun account there => (Finset.mem_union.mp there).elim
      (fun isAdmin => (admin (Finmap.mem_keys.mp isAdmin)).2)
      fun moderator => sound.moderators account (Finset.mem_sdiff.mp moderator).1
    present := present
    roster := joined
    stamps := .of_kept rfl fun account there => by
      obtain ⟨since, found⟩ := Finmap.mem_iff.mp (Finmap.mem_keys.mp there)
      obtain ⟨own, -, rfl⟩ := lookup_adminsAfterWin nobody found
      have role : state.roleOf account ≠ .admin := by
        unfold roleOf
        rw [if_pos own]
        exact nofun
      rw [if_neg role]
      exact found
    poll := nofun
    posting := .inl ⟨rfl, rfl⟩
    electors := by
      refine ⟨fun elector gained => ?_, fun elector lost => ?_⟩
      · obtain ⟨there, new⟩ := Finset.mem_sdiff.mp gained
        exact absurd (Finset.mem_sdiff.mp there).1 new
      · have was := (Finset.mem_sdiff.mp lost).1
        rw [noElectors] at was
        exact absurd was (Finset.notMem_empty elector)
    ownership := .won poll claimant other (fun same => other same.symm) isOpen rfl rfl
      (alone ▸ Finset.mem_singleton_self claimant)
      (.claim empty (alone ▸ Finset.card_singleton claimant) rfl votes longest) rfl rfl rfl ⟨rfl, rfl⟩
    ownerRev := rfl
    roles := nofun }

/-- The longest-serving member claims the group and takes it over. -/
theorem leads_claimed (sound : WellFormed state roster roster) (owns : state.owner = some owner)
    (closed : state.election = none) (nobody : state.admins = ∅) {mem : Account} (there : mem ∈ roster)
    (apart : mem ≠ owner) :
    ∃ later heir, Leads owner roster state later ∧ later.owner = some heir ∧ heir ∈ roster ∧ heir ≠ owner := by
  have other : state.owner ≠ some mem := fun own => apart (Option.some.inj (own.symm.trans owns))
  obtain ⟨claimant, longest⟩ := exists_longestServing (fun account => (sound.joined account).mpr) there other
  obtain ⟨present, notOwner, -⟩ := longestServing_spec longest
  have different : claimant ≠ owner := fun same => notOwner (same ▸ owns)
  have opens := Leads.change sound owns different (transition_claim sound closed nobody longest)
  have takes := Leads.change (sound.of_leads opens) owns different
    (transition_claimed (sound.of_leads opens) nobody rfl rfl rfl longest)
  exact ⟨_, claimant, opens.trans takes, rfl, present, different⟩

end Steps

/-- From every reachable state with a member besides the owner, finitely many accepted commits, none by the owner and
none that changes the roster, make another member the owner. -/
theorem silent_owner_replaced {creator owner member : Account} {group : GroupView Account}
    {history : List (Served (GroupView Account) (Commit Account) GovernanceReject Unit)}
    (run : GroupRun creator history group) (owns : group.state.owner = some owner) (there : member ∈ group.roster)
    (apart : member ≠ owner) :
    ∃ more later heir, Run processCommit byMember group more later ∧
      (∀ entry ∈ more, entry.answer = .ok () ∧ entry.call.committer ≠ owner ∧ entry.call.roster = group.roster) ∧
      later.state.owner = some heir ∧ heir ∈ later.roster ∧ heir ≠ owner := by
  have sound := wellFormed_of_run run
  obtain ⟨closed, closes, owns, none⟩ := leads_close sound owns
  have sound := sound.of_leads closes
  obtain ⟨bare, stepsDown, owns, none, nobody⟩ := leads_no_admins sound owns none
  have sound := sound.of_leads stepsDown
  obtain ⟨later, heir, claims, owned, present, different⟩ := leads_claimed sound owns none nobody there apart
  obtain ⟨more, reached, quiet⟩ := (closes.trans stepsDown).trans claims
  exact ⟨more, ⟨later, group.roster⟩, heir, reached, quiet, owned, present, different⟩

open Example in
theorem silent_owner_replaced_contested :
    contested.state.owner = some 1 ∧ ∃ more later heir, Run processCommit byMember contested more later ∧
      (∀ entry ∈ more, entry.answer = .ok () ∧ entry.call.committer ≠ 1 ∧ entry.call.roster = contested.roster) ∧
      later.state.owner = some heir ∧ heir ∈ later.roster ∧ heir ≠ 1 := by
  have owns : contested.state.owner = some 1 := by decide +kernel
  have there : 4 ∈ contested.roster := by decide +kernel
  exact ⟨owns, silent_owner_replaced contested_run owns there (by decide)⟩

/-- In every reachable state, a member other than the owner with a role may give it up, in a commit that keeps the
roster and changes nobody else's role, exactly when it is no candidate of an open election in whose snapshot it is
not. -/
theorem role_holder_may_step_down {creator account : Account} {group : GroupView Account}
    {history : List (Served (GroupView Account) (Commit Account) GovernanceReject Unit)}
    (run : GroupRun creator history group) (there : account ∈ group.roster)
    (other : group.state.owner ≠ some account) (_ : group.state.roleOf account ≠ .member) :
    (∃ next, processCommit group ⟨account, next, group.roster⟩ = .ok ((), ⟨next, group.roster⟩) ∧
      next.roleOf account = .member ∧ ∀ bystander ≠ account, next.roleOf bystander = group.state.roleOf bystander) ↔
    ∀ poll ∈ group.state.election, account ∈ candidates poll.votes → account ∈ poll.electorate := by
  have sound := wellFormed_of_run run
  constructor
  · rintro ⟨next, processed, role, -⟩
    exact free_of_member sound other (processCommit_ok.mp processed).1 role
  · intro free
    have change := transition_relinquished sound there other free
    exact ⟨relinquished group.state account, accepts_change sound other change, roleOf_relinquished_self other,
      fun _ apart => roleOf_relinquished apart⟩

open Example in
/-- The moderator steps down while the electors vote. -/
theorem role_holder_may_step_down_moderator :
    contested.state.roleOf 4 = .moderator ∧ contested.state.election.isSome ∧
      ∃ next, processCommit contested ⟨4, next, contested.roster⟩ = .ok ((), ⟨next, contested.roster⟩) ∧
        next.roleOf 4 = .member ∧ ∀ bystander ≠ 4, next.roleOf bystander = contested.state.roleOf bystander :=
  ⟨by decide +kernel, by decide +kernel, (role_holder_may_step_down contested_run (by decide +kernel)
    (by decide +kernel) (by decide +kernel)).mpr (by decide +kernel)⟩

namespace Example

/-- The owner makes the moderator an admin, but no elector. -/
def promoted : Commit ℕ :=
  ⟨1, { appointed.next with
    rev := 3, ownerRev := 3, admins := appointed.next.admins.insert 4 3, moderators := ∅ }, added.roster⟩

/-- One elector opens an election, and the other votes for the new admin. -/
def nominating : List (Commit ℕ) :=
  [added, appointed, promoted,
    ⟨2, { promoted.next with rev := 4, election := some ⟨4, {2, 3}, ∅⟩ }, added.roster⟩,
    ⟨3, { promoted.next with rev := 5, election := some ⟨4, {2, 3}, Finmap.singleton 3 4⟩ }, added.roster⟩]

end Example

open Example in
/-- A candidate that is no elector cannot step down: it can neither close the election nor drop the vote. -/
theorem candidate_cannot_step_down :
    ∃ history, ∃ group : GroupView ℕ, GroupRun 1 history group ∧ 4 ∈ group.roster ∧ group.state.owner ≠ some 4 ∧
      group.state.roleOf 4 = .admin ∧
      ∀ next answer, processCommit group ⟨4, next, group.roster⟩ = .ok answer → next.roleOf 4 ≠ .member := by
  have run : GroupRun 1 (execHistory processCommit (GroupView.genesis 1) nominating)
      (exec processCommit (GroupView.genesis 1) nominating) := Run.start.extend nominating (by decide +kernel)
  refine ⟨_, _, run, by decide +kernel, by decide +kernel, by decide +kernel, ?_⟩
  rintro next ⟨_, later⟩ processed role
  have unowned : (exec processCommit (GroupView.genesis 1) nominating).state.owner ≠ some 4 := by decide +kernel
  have free := free_of_member (wellFormed_of_run run) unowned (processCommit_ok.mp processed).1 role
  revert free
  decide +kernel

end Veritra.Governance
