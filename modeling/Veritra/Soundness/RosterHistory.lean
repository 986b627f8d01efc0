import Veritra.Soundness.Retention

/-! # How devices enter and leave a group

The roster of a group changes at commit bundles only. A device becomes active by creating the group
or by an accepted commit that names it, and stops being active by an accepted commit of another
device, once the server itself wants it gone. The rows keep the order of joining and leaving.
-/

namespace Veritra.Storage

open Relational Machine

variable {newID : ℕ → MLSMessageID} {result : MLSCommitBundleResult} {entry : Entry}
  {request : MLSCommitBundleInput} {commit : MLSMessage} {s s' : Store} {now : Time} {epoch : ℕ}

namespace Store

variable {base : Store} {input : MLSCommitBundleInput}

theorem createMLSGroup_active (created : s.createMLSGroup now input = .ok base)
    (conversationID : ConversationID) (deviceID : DeviceID) :
    base.activeMLSDevice conversationID deviceID ↔ s.activeMLSDevice conversationID deviceID ∨
      (conversationID = input.conversationID ∧ deviceID = input.senderDeviceID) := by
  obtain ⟨middle, recorded, rfl⟩ := createMLSGroup_ok created
  have same : (middle.dropStaleMLSRevocations input.conversationID).activeMLSDevice conversationID
      deviceID ↔ middle.activeMLSDevice conversationID deviceID := Iff.rfl
  constructor
  · rintro ⟨row, mem, rfl, rfl, live⟩
    rcases (recorded.roster row).mp mem with old | rfl
    · exact .inl ⟨row, old, rfl, rfl, live⟩
    · exact .inr ⟨rfl, rfl⟩
  · rintro (⟨row, mem, rfl, rfl, live⟩ | ⟨rfl, rfl⟩)
    · exact ⟨row, (recorded.roster row).mpr (.inl mem), rfl, rfl, live⟩
    · exact ⟨_, (recorded.roster _).mpr (.inr rfl), rfl, rfl, rfl⟩

theorem createMLSGroup_frame (created : s.createMLSGroup now input = .ok base) :
    base.devices = s.devices ∧ base.memberships = s.memberships ∧ base.events = s.events := by
  obtain ⟨middle, recorded, rfl⟩ := createMLSGroup_ok created
  obtain ⟨_, _, rfl⟩ := recorded.frame
  exact ⟨rfl, rfl, rfl⟩

/-- A commit finds the members and devices of the store, and its sender active. -/
structure PlacedFacts (s base : Store) (input : MLSCommitBundleInput) : Prop where
  devices : base.devices = s.devices
  memberships : base.memberships = s.memberships
  sender : base.activeMLSDevice input.conversationID input.senderDeviceID
  active : ∀ conversationID deviceID, base.activeMLSDevice conversationID deviceID ↔
    s.activeMLSDevice conversationID deviceID ∨ (s.mlsGroupEpoch input.conversationID = none ∧
      conversationID = input.conversationID ∧ deviceID = input.senderDeviceID)
  removed : s.mlsGroupEpoch input.conversationID = none → input.removed = []

theorem Placed.facts (placed : s.Placed now input base epoch) : PlacedFacts s base input := by
  cases placed with
  | recorded group active current =>
    have noMissing : s.mlsGroupEpoch input.conversationID ≠ none := by simp [group]
    exact ⟨rfl, rfl, active, fun _ _ => ⟨.inl, fun either => either.resolve_right
      fun missing => noMissing missing.1⟩, fun missing => absurd missing noMissing⟩
  | created noGroup changes created =>
    obtain ⟨devices, memberships, -⟩ := createMLSGroup_frame created
    obtain ⟨_, recorded, -⟩ := createMLSGroup_ok created
    have active := createMLSGroup_active created
    refine ⟨devices, memberships, (active _ _).mpr (.inr ⟨rfl, rfl⟩), ?_, fun _ => recorded.removed⟩
    intro conversationID deviceID
    simp only [active, noGroup, true_and]

theorem writeCommit_active (written : base.writeCommit now newID input epoch = .ok (result, s'))
    (conversationID : ConversationID) (deviceID : DeviceID) :
    s'.activeMLSDevice conversationID deviceID ↔
      (conversationID = input.conversationID ∧ names input.added deviceID) ∨
        (base.activeMLSDevice conversationID deviceID ∧
          ¬ (conversationID = input.conversationID ∧ names input.removed deviceID)) := by
  obtain ⟨commit, welcomes, middle, writes, -, -, -, rfl⟩ := writeCommit_ok written
  change Roster.active _ _ _ ↔ _
  rw [(finishCommit_writes middle now input commit).roster]
  exact writes.roster.active conversationID deviceID

end Store

/-- The entry is a bundle that records the conversation's group, with the device as its creator. -/
structure CreatesGroup (conversationID : ConversationID) (deviceID : DeviceID) (entry : Entry) : Prop where
  bundle : ∃ now newID request, entry.call = .createMLSCommitBundle now newID request ∧
    request.trim.conversationID = conversationID ∧ request.senderDeviceID = deviceID ∧
    entry.before.isMemberDevice conversationID request.senderAccountID deviceID
  missing : ¬ entry.before.hasMLSGroup conversationID
  recorded : entry.after.hasMLSGroup conversationID

/-- The entry is an accepted commit that adds the device, which is an unrevoked device of a current
member and not active. -/
def Admits (conversationID : ConversationID) (deviceID : DeviceID) (entry : Entry) : Prop :=
  ∃ request commit accountID, acceptedCommit conversationID entry = some (request, commit) ∧
    ⟨accountID, deviceID⟩ ∈ request.added ∧
    entry.before.isMemberDevice conversationID accountID deviceID ∧
    ¬ entry.before.activeMLSDevice conversationID deviceID

/-- The entry is an accepted commit of another device that removes the active device, whose account
is no longer a member or which is revoked or missing. -/
def Expels (conversationID : ConversationID) (deviceID : DeviceID) (entry : Entry) : Prop :=
  ∃ request commit, acceptedCommit conversationID entry = some (request, commit) ∧
    request.senderDeviceID ≠ deviceID ∧
    ∃ row ∈ entry.before.mls.devices, row.conversationID = conversationID ∧ row.deviceID = deviceID ∧
      row.removedAfterEventID = none ∧ ⟨row.accountID, deviceID⟩ ∈ request.removed ∧
      (¬ entry.before.isConversationMember conversationID row.accountID ∨
        ¬ ∃ d ∈ entry.before.devices, d.id = deviceID ∧ d.revokedAt = none)

/-- How an entry may change who is active. -/
structure RosterStep (entry : Entry) : Prop where
  enters : ∀ conversationID deviceID, ¬ entry.before.activeMLSDevice conversationID deviceID →
    entry.after.activeMLSDevice conversationID deviceID →
    CreatesGroup conversationID deviceID entry ∨ Admits conversationID deviceID entry
  leaves : ∀ conversationID deviceID, entry.before.activeMLSDevice conversationID deviceID →
    ¬ entry.after.activeMLSDevice conversationID deviceID → Expels conversationID deviceID entry
  sender : ∀ conversationID request commit,
    acceptedCommit conversationID entry = some (request, commit) →
    (entry.before.activeMLSDevice conversationID request.senderDeviceID ∨
      CreatesGroup conversationID request.senderDeviceID entry) ∧
    entry.after.activeMLSDevice conversationID request.senderDeviceID

theorem acceptedCommit_eq_some {conversationID : ConversationID}
    (accepted : acceptedCommit conversationID entry = some (request, commit)) :
    (∃ now newID, entry.call = .createMLSCommitBundle now newID request) ∧ (∃ welcomes epoch eventID,
        entry.answer = .ok (.bundle ⟨some commit, welcomes, epoch, false, eventID⟩)) ∧
      request.trim.conversationID = conversationID := by
  unfold acceptedCommit at accepted
  split at accepted
  · next now newID _ _ welcomes epoch eventID call answered =>
    split at accepted
    · next here =>
      cases accepted
      exact ⟨⟨now, newID, call⟩, ⟨welcomes, epoch, eventID, answered⟩, here⟩
    · cases accepted
  · cases accepted

namespace RosterStep

/-- An entry that leaves the roster as it was, and accepts no commit. -/
theorem of_same (same : ∀ conversationID deviceID, entry.after.activeMLSDevice conversationID deviceID ↔
      entry.before.activeMLSDevice conversationID deviceID)
    (none_accepted : ∀ conversationID, acceptedCommit conversationID entry = none) :
    RosterStep entry where
  enters conversationID deviceID inactive active :=
    absurd ((same conversationID deviceID).mp active) inactive
  leaves conversationID deviceID active inactive :=
    absurd ((same conversationID deviceID).mpr active) inactive
  sender conversationID request commit accepted := by
    rw [none_accepted] at accepted
    cases accepted

theorem none_accepted (refused : result.commit = none ∨ result.duplicate = true)
    (conversationID : ConversationID) :
    acceptedCommit conversationID
      ⟨s, .createMLSCommitBundle now newID request, .ok (.bundle result), s'⟩ = none := by
  refine Option.eq_none_iff_forall_ne_some.mpr fun ⟨other, commit⟩ accepted => ?_
  obtain ⟨-, ⟨_, _, _, answered⟩, -⟩ := acceptedCommit_eq_some accepted
  cases answered
  simp at refused

variable {limits : Limits} {base : Store}

section

variable (mem : s.isMemberDevice request.trim.conversationID request.trim.senderAccountID request.trim.senderDeviceID)
include mem

theorem of_recorded (noGroup : s.mlsGroupEpoch request.trim.conversationID = none)
    (created : s.createMLSGroup now request.trim = .ok s') :
    RosterStep ⟨s, .createMLSCommitBundle now newID request, .ok (.bundle ⟨none, [], 0, false, 0⟩), s'⟩ := by
  have active := Store.createMLSGroup_active created
  have epoch := Store.createMLSGroup_epoch created request.trim.conversationID
  rw [if_pos rfl] at epoch
  refine ⟨?_, ?_, ?_⟩
  · intro conversationID deviceID inactive now_active
    obtain ⟨rfl, rfl⟩ := ((active conversationID deviceID).mp now_active).resolve_left inactive
    refine .inl ⟨⟨now, newID, request, rfl, rfl, rfl, mem⟩, Store.mlsGroupEpoch_eq_none.mp noGroup, ?_⟩
    obtain ⟨g, group, here, -⟩ := Store.mlsGroupEpoch_eq_some.mp epoch
    exact ⟨g, group, here⟩
  · intro conversationID deviceID was_active inactive
    exact absurd ((active conversationID deviceID).mpr (.inl was_active)) inactive
  · intro conversationID other commit accepted
    cases accepted

theorem of_accepted (valid : request.trim.valid) (placed : s.Placed now request.trim base epoch)
    (addable : ∀ added ∈ request.trim.added, base.mlsAddable request.trim.conversationID added)
    (removable : ∀ removed ∈ request.trim.removed,
      base.mlsRemovable request.trim.conversationID request.trim.revocationDeviceID removed)
    (written : base.writeCommit now newID request.trim epoch = .ok (result, s')) :
    RosterStep ⟨s, .createMLSCommitBundle now newID request, .ok (.bundle result), s'⟩ := by
  have facts := placed.facts
  have active := Store.writeCommit_active written
  obtain ⟨commit, _, _, -, isCommit, -, isNew, -⟩ := Store.writeCommit_ok written
  have accepted : acceptedCommit request.trim.conversationID
      ⟨s, .createMLSCommitBundle now newID request, .ok (.bundle result), s'⟩ = some (request, commit) := by
    cases result
    cases isCommit
    cases isNew
    exact if_pos rfl
  have creates : s.mlsGroupEpoch request.trim.conversationID = none →
      CreatesGroup request.trim.conversationID request.senderDeviceID
        ⟨s, .createMLSCommitBundle now newID request, .ok (.bundle result), s'⟩ := by
    intro noGroup
    refine ⟨⟨now, newID, request, rfl, rfl, rfl, mem⟩, Store.mlsGroupEpoch_eq_none.mp noGroup, ?_⟩
    have after := (Store.writeCommit_epoch placed.epoch.1 written).1
    obtain ⟨g, group, here, -⟩ := Store.mlsGroupEpoch_eq_some.mp after
    exact ⟨g, group, here⟩
  refine ⟨?_, ?_, ?_⟩
  · intro conversationID deviceID inactive now_active
    rcases (active conversationID deviceID).mp now_active with ⟨rfl, ref, listed, rfl⟩ | ⟨was_active, -⟩
    · obtain ⟨⟨inConversation, unrevoked⟩, -⟩ := addable ref listed
      refine .inr ⟨request, commit, ref.accountID, accepted, listed, ⟨?_, ?_⟩, inactive⟩
      · unfold Store.isConversationMember at inConversation ⊢
        rwa [facts.memberships] at inConversation
      · unfold Store.isUnrevokedDeviceOf at unrevoked ⊢
        rwa [facts.devices] at unrevoked
    · obtain ⟨noGroup, rfl, rfl⟩ := ((facts.active _ _).mp was_active).resolve_left inactive
      exact .inl (creates noGroup)
  · intro conversationID deviceID was_active inactive
    have inBase := (facts.active conversationID deviceID).mpr (.inl was_active)
    have named : conversationID = request.trim.conversationID ∧ names request.trim.removed deviceID := by
      by_contra unnamed
      exact inactive ((active conversationID deviceID).mpr (.inr ⟨inBase, unnamed⟩))
    obtain ⟨rfl, ref, listed, rfl⟩ := named
    cases placed with
    | created noGroup _ _ =>
      rw [facts.removed noGroup] at listed
      cases listed
    | recorded _ _ _ =>
      obtain ⟨⟨row, rowMember, here, device, live, account⟩, gone, -⟩ := removable ref listed
      refine ⟨request, commit, accepted, (valid.2.1 ref listed).symm, row, rowMember, here, device, live, ?_, ?_⟩
      · rw [account]
        exact listed
      · rw [account]
        exact gone
  · intro conversationID other otherCommit otherAccepted
    obtain ⟨⟨_, _, same⟩, -, rfl⟩ := acceptedCommit_eq_some otherAccepted
    cases same
    refine ⟨?_, ?_⟩
    · rcases (facts.active _ _).mp facts.sender with was_active | ⟨noGroup, -, -⟩
      · exact .inl was_active
      · exact .inr (creates noGroup)
    · refine (active _ _).mpr (.inr ⟨facts.sender, ?_⟩)
      rintro ⟨-, ref, listed, same⟩
      exact valid.2.1 ref listed same

theorem of_bundle (valid : request.trim.valid)
    (outcome : Store.BundleOutcome limits s now newID request.trim result s') :
    RosterStep ⟨s, .createMLSCommitBundle now newID request, .ok (.bundle result), s'⟩ := by
  cases outcome with
  | replayed | known => exact of_same (fun _ _ => Iff.rfl) (none_accepted (.inr rfl))
  | recorded _ noGroup created => exact of_recorded mem noGroup created
  | accepted _ _ placed addable removable _ written =>
    exact of_accepted mem valid placed addable removable written

end

end RosterStep

/-- Every served call changes rosters in one of the described ways. -/
theorem rosterStep_of_serve (limits : Limits) (s : Store) (call : Call) :
    RosterStep (serve (step limits) s call) := by
  cases outcome : step limits s call with
  | error refusal =>
    rw [serve_of_error outcome]
    refine .of_same (fun _ _ => Iff.rfl) fun _ => Option.eq_none_iff_forall_ne_some.mpr ?_
    rintro ⟨request, commit⟩ accepted
    obtain ⟨-, ⟨_, _, _, answered⟩, -⟩ := acceptedCommit_eq_some accepted
    cases answered
  | ok result =>
    obtain ⟨given, s'⟩ := result
    rw [serve_of_ok outcome]
    rcases (effect_of_step outcome).bundle_or_sameGroups with
      ⟨_, _, _, _, rfl, rfl, valid, mem, outcome⟩ | ⟨other, same⟩
    · exact .of_bundle mem valid outcome
    · refine .of_same (fun _ _ => by simp only [Store.activeMLSDevice, same.roster]) fun _ =>
        Option.eq_none_iff_forall_ne_some.mpr ?_
      rintro ⟨request, commit⟩ accepted
      obtain ⟨⟨now, newID, here⟩, -, -⟩ := acceptedCommit_eq_some accepted
      exact other _ _ _ here

/-- What a roster row records: the group has reached the epoch it joined at, and it left later than it
joined. -/
structure RowSound (s : Store) (row : MLSDevice) : Prop where
  epoch : ∃ epoch, s.mlsGroupEpoch row.conversationID = some epoch ∧ row.joinedEpoch ≤ epoch
  joined : row.joinedAfterEventID ≤ s.events.last
  order : ∀ removed ∈ row.removedAfterEventID, row.joinedAfterEventID < removed

namespace RowSound

variable {base : Store} {input : MLSCommitBundleInput}

theorem created (sound : ∀ row ∈ s.mls.devices, RowSound s row)
    (noGroup : s.mlsGroupEpoch input.conversationID = none)
    (created : s.createMLSGroup now input = .ok base) : ∀ row ∈ base.mls.devices, RowSound base row := by
  have epochs := Store.createMLSGroup_epoch created
  obtain ⟨-, -, events⟩ := Store.createMLSGroup_frame created
  obtain ⟨middle, recorded, rfl⟩ := Store.createMLSGroup_ok created
  intro row mem
  rcases (recorded.roster row).mp mem with old | rfl
  · obtain ⟨⟨epoch, group, reached⟩, joined, order⟩ := sound row old
    -- A row of the new group's conversation would have had a group already.
    have other : row.conversationID ≠ input.conversationID := by
      intro here
      rw [here, noGroup] at group
      cases group
    refine ⟨⟨epoch, ?_, reached⟩, events ▸ joined, order⟩
    rw [epochs, if_neg other]
    exact group
  · exact ⟨⟨0, by rw [epochs, if_pos rfl], Nat.le_refl _⟩, Nat.zero_le _, nofun⟩

theorem written (sound : ∀ row ∈ base.mls.devices, RowSound base row)
    (group : base.mlsGroupEpoch input.conversationID = some epoch)
    (written : base.writeCommit now newID input epoch = .ok (result, s')) :
    ∀ row ∈ s'.mls.devices, RowSound s' row := by
  obtain ⟨here, others⟩ := Store.writeCommit_epoch group written
  obtain ⟨commit, welcomes, middle, writes, -, -, -, rfl⟩ := Store.writeCommit_ok written
  have after := middle.finishCommit_writes now input commit
  have last_le : base.events.last + 1 ≤ (middle.finishCommit now input commit).events.last :=
    writes.syncEventID ▸ writes.last.trans after.grows.last_le
  intro row mem
  rw [after.roster] at mem
  rcases writes.roster.rows row mem with ⟨old, oldMember, same, ended⟩ | joined
  · obtain ⟨⟨n, oldGroup, reached⟩, oldJoined, order⟩ := sound old oldMember
    refine ⟨?_, ?_, ?_⟩
    · rw [same.conversationID, same.joinedEpoch]
      by_cases this : old.conversationID = input.conversationID
      · rw [this, group] at oldGroup
        cases oldGroup
        exact ⟨epoch + 1, this ▸ here, reached.trans (Nat.le_succ _)⟩
      · exact ⟨n, (others _ this).trans oldGroup, reached⟩
    · rw [same.joinedAfterEventID]
      exact oldJoined.trans ((Nat.le_succ _).trans last_le)
    · intro removed isRemoved
      rw [same.joinedAfterEventID]
      rcases ended with unchanged | ⟨-, now_ended, -, -⟩
      · exact order removed (unchanged ▸ isRemoved)
      · rw [now_ended, writes.syncEventID] at isRemoved
        cases isRemoved
        exact Nat.lt_succ_of_le oldJoined
  · refine ⟨⟨epoch + 1, joined.conversation ▸ here, joined.joinedEpoch.le⟩, ?_, ?_⟩
    · rw [joined.joinedAfterEventID, writes.syncEventID]
      exact last_le
    · rw [joined.active]
      exact nofun

theorem bundle {limits : Limits} (sound : ∀ row ∈ s.mls.devices, RowSound s row)
    (outcome : Store.BundleOutcome limits s now newID input result s') :
    ∀ row ∈ s'.mls.devices, RowSound s' row :=
  outcome.induct sound (fun _ noGroup recorded => created sound noGroup recorded)
    fun _ _ _ _ placed sound isWritten => written sound placed.epoch.1 isWritten

theorem of_run {limits : Limits} {guard : Store → Call → Prop} {history : List Entry}
    (run : Run (step limits) guard Store.init history s) : ∀ row ∈ s.mls.devices, RowSound s row := by
  refine run.preserves (fun s => ∀ row ∈ s.mls.devices, RowSound s row) ?_ ?_
  · intro row mem
    exact absurd mem (Table.not_mem_empty row)
  · intro s call given s' _ sound ok
    have last_le := (events_of_step ok).last_le
    rcases (effect_of_step ok).bundle_or_sameGroups with ⟨_, _, _, _, rfl, rfl, -, -, outcome⟩ | ⟨-, same⟩
    · exact bundle sound outcome
    · intro row mem
      rw [same.roster] at mem
      obtain ⟨⟨epoch, group, reached⟩, joined, order⟩ := sound row mem
      refine ⟨⟨epoch, ?_, reached⟩, joined.trans last_le, order⟩
      simp only [Store.mlsGroupEpoch, same.groups]
      exact group

end RowSound

/-- In every run, devices enter and leave rosters only in the described ways, every accepted commit
comes from an active device, and every row records its joining and leaving in order. -/
theorem roster_sound {limits : Limits} {history : List Entry} {s : Store}
    (run : ServerRun limits history s) :
    (∀ entry ∈ history, RosterStep entry) ∧
      ∀ row ∈ s.mls.devices,
        (∃ epoch, s.mlsGroupEpoch row.conversationID = some epoch ∧ row.joinedEpoch ≤ epoch) ∧
        ∀ removed ∈ row.removedAfterEventID, row.joinedAfterEventID < removed := by
  constructor
  · intro entry member
    obtain ⟨_, -, -, served⟩ := run.reaches_before member
    rw [served]
    exact rosterStep_of_serve limits entry.before entry.call
  · intro row member
    have sound := RowSound.of_run run row member
    exact ⟨sound.epoch, sound.order⟩

open Example in
/-- Bob's device was added by Alice's commit and removed by hers after its revocation. -/
theorem roster_sound_revoked :
    (∃ row ∈ (exec (step limits) Store.init bobRevoked).mls.devices,
      row.deviceID = "bob-phone" ∧ row.removedAfterEventID ≠ none) ∧
      ∀ row ∈ (exec (step limits) Store.init bobRevoked).mls.devices,
        ∀ removed ∈ row.removedAfterEventID, row.joinedAfterEventID < removed :=
  ⟨by decide +kernel, fun row member =>
    ((roster_sound (run_exec (step limits) Store.init bobRevoked)).2 row member).2⟩

end Veritra.Storage
