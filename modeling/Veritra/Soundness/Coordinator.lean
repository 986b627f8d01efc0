import Veritra.Soundness.Completion
import Veritra.Soundness.RosterHistory

/-! # No revocation of a recorded group is stranded

A pending revocation of a recorded group names a device that is still on the roster, so that there
is a leaf to remove. Only revoking queues revocations, and only for devices on a roster or in groups
without one; only bundles take devices off a roster, and they drop what became stale. As long as
another device of the group can act, exactly one of them is the coordinator that may commit.
-/

namespace Veritra.Storage

open Relational Machine

variable {k : RevocationKey}

/-- Each pending revocation of a recorded group names an active device. -/
def Store.pendingActive (s : Store) : Prop :=
  ∀ k, s.revocationState k = some .pending → s.hasMLSGroup k.1 → s.activeMLSDevice k.1 k.2

/-- Commits and confirmations queue nothing. -/
theorem Progress.pending {s s' : Store} (progress : Progress .committing s s')
    (pending : s'.revocationState k = some .pending) : s.revocationState k = some .pending := by
  have moved := progress.moved k
  rw [pending] at moved
  revert moved
  rcases s.revocationState k with _ | _ | _ | _ <;> decide

namespace Store

variable {conversationID : ConversationID} {input : MLSCommitBundleInput} {r : MLSRevocation} {s s' : Store}
  {accountID : AccountID} {deviceID : DeviceID} {now : Time} {result : MLSCommitBundleResult}
  {newID : ℕ → MLSMessageID}

theorem hasMLSGroup_congr (same : SameGroups s s') :
    s'.hasMLSGroup conversationID ↔ s.hasMLSGroup conversationID := by
  rw [hasMLSGroup, hasMLSGroup, same.groups]

theorem activeMLSDevice_congr (same : SameGroups s s') :
    s'.activeMLSDevice conversationID deviceID ↔ s.activeMLSDevice conversationID deviceID := by
  rw [activeMLSDevice, activeMLSDevice, same.roster]

/-- Where the groups stay, it is enough that what became pending has a leaf or no recorded group. -/
theorem pendingActive.sameGroups (active : s.pendingActive) (same : SameGroups s s')
    (pending : ∀ k, s'.revocationState k = some .pending → s.revocationState k = some .pending ∨
      ¬ s.hasMLSGroup k.1 ∨ s.activeMLSDevice k.1 k.2) : s'.pendingActive := by
  intro k isPending group
  rw [hasMLSGroup_congr same] at group
  rw [activeMLSDevice_congr same]
  rcases pending k isPending with old | noGroup | onRoster
  · exact active k old group
  · exact absurd group noGroup
  · exact onRoster

theorem queueEach_pending {keys : List (ConversationID × DeviceID)}
    (pending : (s.queueEach accountID deviceID now keys).revocationState k = some .pending) :
    s.revocationState k = some .pending ∨ ∃ key ∈ keys, k = (key.1, deviceID) := by
  induction keys generalizing s with
  | nil => exact .inl pending
  | cons key rest ih =>
    rcases ih pending with first | ⟨other, listed, here⟩
    · rcases s.queue_ok accountID deviceID now key.1 key.2 with ⟨same, -⟩ | queues
      · rw [same] at first
        exact .inl first
      · by_cases here : k = (key.1, deviceID)
        · exact .inr ⟨key, List.mem_cons_self, here⟩
        · exact .inl (queues.other k here ▸ first)
    · exact .inr ⟨other, List.mem_cons_of_mem _ listed, here⟩

/-- Revocations are queued in groups without roster and where the device has a leaf. -/
theorem queued_has_leaf {key : ConversationID × DeviceID}
    (listed : key ∈ s.legacyRevocations accountID deviceID ++ s.rosterRevocations deviceID) :
    ¬ s.hasMLSGroup key.1 ∨ s.activeMLSDevice key.1 deviceID := by
  rcases List.mem_append.mp listed with legacy | rostered
  · obtain ⟨m, -, chosen⟩ := List.mem_filterMap.mp legacy
    split at chosen
    · cases chosen
    · split at chosen
      · next noGroup =>
        obtain ⟨_, -, rfl⟩ := Option.map_eq_some_iff.mp chosen
        exact .inl noGroup.1
      · cases chosen
  · obtain ⟨target, mem, chosen⟩ := List.mem_filterMap.mp rostered
    obtain ⟨_, -, rfl⟩ := Option.map_eq_some_iff.mp chosen
    obtain ⟨stored, live⟩ := List.mem_filter.mp mem
    obtain ⟨device, unremoved⟩ := of_decide_eq_true live
    exact .inr ⟨target, stored, rfl, device, unremoved⟩

theorem pendingActive.retired (active : s.pendingActive) :
    (s.retireMLSDevice accountID deviceID now).pendingActive := by
  have writes := s.retireMLSDevice_writes accountID deviceID now
  refine active.sameGroups ⟨writes.groups, writes.roster⟩ fun k pending => ?_
  have queued := (Progress.release Move.committing_forward).pending pending
  rcases queueEach_pending queued with old | ⟨key, listed, rfl⟩
  · exact .inl old
  · have leaf := queued_has_leaf listed
    exact .inr leaf

theorem pendingActive.of_mls (active : s.pendingActive) (same : s'.mls = s.mls) : s'.pendingActive := by
  unfold pendingActive revocationState hasMLSGroup activeMLSDevice at active ⊢
  rwa [same]

theorem pendingActive.revoked (active : s.pendingActive) :
    (s.revoked accountID deviceID now).pendingActive := by
  refine pendingActive.retired ?_
  exact active

theorem dropStale_active (here : k.1 = conversationID)
    (pending : (s.dropStaleMLSRevocations conversationID).revocationState k = some .pending)
    (group : (s.dropStaleMLSRevocations conversationID).hasMLSGroup k.1) :
    (s.dropStaleMLSRevocations conversationID).activeMLSDevice k.1 k.2 := by
  have drops := s.drop_ok conversationID
  by_contra inactive
  by_cases stale : s.isStale conversationID k
  · exact nomatch (drops.dropped k stale).symm.trans pending
  · exact stale ⟨here, drops.kept k stale ▸ pending, group, inactive⟩

section

variable (active : s.pendingActive)

include active

/-- A part of a bundle that ends with dropping, and leaves the groups of other conversations. -/
theorem pendingActive.bundlePart
    (progress : Progress .committing s (s'.dropStaleMLSRevocations conversationID))
    (groups : ∀ other, other ≠ conversationID →
      (s'.dropStaleMLSRevocations conversationID).mlsGroupEpoch other = s.mlsGroupEpoch other)
    (roster : ∀ other deviceID, other ≠ conversationID → s.activeMLSDevice other deviceID →
      (s'.dropStaleMLSRevocations conversationID).activeMLSDevice other deviceID) :
    (s'.dropStaleMLSRevocations conversationID).pendingActive := by
  intro k pending group
  by_cases here : k.1 = conversationID
  · exact dropStale_active here pending group
  · refine roster _ _ here (active k (progress.pending pending) ?_)
    by_contra noGroup
    rw [← mlsGroupEpoch_eq_none, ← groups _ here, mlsGroupEpoch_eq_none] at noGroup
    exact noGroup group

theorem pendingActive.created {base : Store}
    (created : s.createMLSGroup now input = .ok base) : base.pendingActive := by
  obtain ⟨middle, recorded, rfl⟩ := createMLSGroup_ok created
  refine active.bundlePart (.created created) (fun other elsewhere => ?_) fun other device _ live => ?_
  · rw [createMLSGroup_epoch created, if_neg elsewhere]
  · exact (createMLSGroup_active created other device).mpr (.inl live)

theorem pendingActive.written {epoch : ℕ} (group : s.mlsGroupEpoch input.conversationID = some epoch)
    (written : s.writeCommit now newID input epoch = .ok (result, s')) : s'.pendingActive := by
  obtain ⟨commit, welcomes, middle, writes, -, -, -, rfl⟩ := writeCommit_ok written
  refine active.bundlePart (.written written) (fun other elsewhere => ?_)
    fun other device elsewhere live => ?_
  · exact (writeCommit_epoch group written).2 other elsewhere
  · exact (writeCommit_active written other device).mpr (.inr ⟨live, fun hit => elsewhere hit.1⟩)

theorem pendingActive.bundle {limits : Limits}
    (outcome : BundleOutcome limits s now newID input result s') : s'.pendingActive :=
  outcome.induct active (fun _ _ created => active.created created)
    fun _ _ _ _ placed active written => active.written placed.epoch.1 written

theorem pendingActive.step {limits : Limits} {call : Call} {given : Answer}
    (ok : step limits s call = .ok (given, s')) : s'.pendingActive := by
  have sameGroups := (effect_of_step ok).sameGroups
  cases effect_of_step ok with
  | harmless _ harmless => exact active.of_mls harmless.mls
  | removed quiet => exact active.of_mls quiet.mls
  | marked => exact active.of_mls rfl
  | revoked => exact active.revoked
  | recovered recovered =>
    refine pendingActive.of_mls ?_ recovered.added.mls
    exact revokeEach_preserves (fun _ _ each => each.revoked) recovered.revoked (active.of_mls rfl)
  | deleted deleted =>
    refine pendingActive.of_mls ?_ deleted.mls
    obtain ⟨_, rfl⟩ := deleted.retiring
    exact retireEach_preserves (fun _ _ each => each.retired) (active.of_mls rfl)
  | bundle _ _ outcome => exact active.bundle outcome
  | single _ outcome =>
    refine active.sameGroups (sameGroups nofun) fun k pending => ?_
    exact .inl ((Progress.single outcome).pending pending)
  | confirmed confirmed =>
    refine active.sameGroups (sameGroups nofun) fun k pending => ?_
    exact .inl ((Progress.confirmed confirmed).pending pending)
  | message _ writes => exact active.of_mls writes.mls
  | pruned pruned =>
    obtain ⟨_, _, _, rfl⟩ := (pruneSyncEventsBatch_ok pruned).frame
    exact active

end

/-- The device could commit the revocation of a recorded group: it is another active device of the
group, not revoked, and its account is a member. -/
def couldCommit (s : Store) (r : MLSRevocation) (d : Device) : Prop :=
  s.activeMLSDevice r.conversationID d.id ∧ d.revokedAt = none ∧
    s.isConversationMember r.conversationID d.accountID ∧ d.id ≠ r.revokedDeviceID
  deriving Decidable

/-- In a recorded group only roster devices are eligible. -/
theorem eligible_iff (group : s.hasMLSGroup r.conversationID) :
    s.mlsRevocationEligibleDevice r deviceID ↔ ∃ d ∈ s.devices, d.id = deviceID ∧ s.couldCommit r d := by
  constructor
  · rintro ⟨d, mem, same, live, other, inConversation, leaf⟩
    exact ⟨d, mem, same, leaf.resolve_right fun legacy => legacy.1 group, live, inConversation, other⟩
  · rintro ⟨d, mem, same, active, live, inConversation, other⟩
    exact ⟨d, mem, same, live, other, inConversation, .inl active⟩

/-- With a leaf to remove and an eligible device there is a coordinator, and it is eligible. -/
theorem coordinator_of_eligible (target : s.mlsRevocationTargetInGroup r)
    (eligible : s.mlsRevocationEligibleDevice r deviceID) :
    ∃ leader, s.mlsRevocationCoordinator r = some leader ∧ s.mlsRevocationEligibleDevice r leader := by
  unfold mlsRevocationCoordinator
  rw [if_neg (not_not.mpr target)]
  split
  · next recorded => exact ⟨_, rfl, recorded⟩
  · -- The recorded coordinator cannot act, so the lowest of the others takes over.
    obtain ⟨d, mem, rfl, live, other, inConversation, leaf⟩ := eligible
    have listed : d.id ∈ (s.devices.rows.filter fun cd => s.isConversationMember r.conversationID
        cd.accountID ∧ s.mlsRevocationEligibleDevice r cd.id).map (·.id) := by
      refine List.mem_map.mpr ⟨d, List.mem_filter.mpr ⟨mem, decide_eq_true ⟨inConversation, ?_⟩⟩, rfl⟩
      exact ⟨d, mem, rfl, live, other, inConversation, leaf⟩
    obtain ⟨leader, lowest⟩ := Option.isSome_iff_exists.mp (List.isSome_min?_of_mem listed)
    obtain ⟨cd, chosen, rfl⟩ := List.mem_map.mp (List.min?_mem lowest)
    exact ⟨cd.id, lowest, (of_decide_eq_true (List.mem_filter.mp chosen).2).2⟩

end Store

/-- In every state reached, each pending revocation of a recorded group names a device that is active
in it, and as long as another device could commit it, exactly one device may, and it is such a
device. -/
theorem pending_revocation_not_stranded {limits : Limits} {history : List Entry} {s : Store}
    (run : ServerRun limits history s) :
    ∀ r ∈ s.mls.revocations, r.state = .pending → s.hasMLSGroup r.conversationID →
      s.activeMLSDevice r.conversationID r.revokedDeviceID ∧
      ((∃ d ∈ s.devices, s.couldCommit r d) →
        ∃ leader ∈ s.devices, s.couldCommit r leader ∧ ∀ deviceID,
          s.mlsRevocationCommitAllowed r.conversationID r.revokedDeviceID deviceID ↔ deviceID = leader.id) := by
  have pendingActive : s.pendingActive := by
    refine run.preserves Store.pendingActive ?_ fun _ _ _ _ _ active committed => active.step committed
    intro k pending
    cases pending
  intro r member pending group
  have active := pendingActive r.key (pending ▸ Store.revocationState_of_mem member) group
  refine ⟨active, ?_⟩
  rintro ⟨d, device, could⟩
  have target : s.mlsRevocationTargetInGroup r := by
    rw [Store.mlsRevocationTargetInGroup, if_pos group]
    exact active
  obtain ⟨leader, coordinator, eligible⟩ := Store.coordinator_of_eligible target
    ((Store.eligible_iff group).mpr ⟨d, device, rfl, could⟩)
  obtain ⟨d, device, rfl, could⟩ := (Store.eligible_iff group).mp eligible
  refine ⟨d, device, could, fun deviceID => ⟨?_, ?_⟩⟩
  · rintro ⟨other, otherMember, conversation, revoked, -, allowed⟩
    have same : other = r :=
      Table.eq_of_key otherMember member (Prod.ext conversation revoked)
    rw [same, coordinator] at allowed
    exact (Option.some.inj allowed).symm
  · rintro rfl
    exact ⟨r, member, rfl, rfl, pending, coordinator⟩

namespace Example

/-- Bob's device is revoked, and nobody has committed it. -/
def trioBobRevoked : List Call := trio ++ [.revokeDeviceWithSyncEvent 3 bob "bob-phone"]

end Example

open Example in
/-- One device may commit the revocation of Bob's device. -/
theorem pending_revocation_not_stranded_bob :
    ∃ history s, ServerRun limits history s ∧ ∃ r ∈ s.mls.revocations, r.state = .pending ∧
      ∃ leader ∈ s.devices, s.couldCommit r leader ∧ ∀ deviceID,
        s.mlsRevocationCommitAllowed r.conversationID r.revokedDeviceID deviceID ↔ deviceID = leader.id := by
  have run := run_exec (step limits) Store.init trioBobRevoked
  have waiting : ∃ r ∈ (exec (step limits) Store.init trioBobRevoked).mls.revocations, r.state = .pending ∧
      (exec (step limits) Store.init trioBobRevoked).hasMLSGroup r.conversationID ∧
      ∃ d ∈ (exec (step limits) Store.init trioBobRevoked).devices,
        (exec (step limits) Store.init trioBobRevoked).couldCommit r d := by
    decide +kernel
  obtain ⟨r, member, pending, group, could⟩ := waiting
  exact ⟨_, _, run, r, member, pending, (pending_revocation_not_stranded run r member pending group).2 could⟩

end Veritra.Storage
