import Veritra.Proofs.Storage.Waiting
import Veritra.Soundness.Retention

/-! # Revocations wait only for devices that can confirm

A revocation waits for the devices that had a leaf when it was queued. Revoking one of them with its
event, recovering its account or deleting it releases what it owes, so the invariant survives all of
these. It does not survive two calls that release nothing: removing a member from a conversation,
and revoking a device without an event.
-/

namespace Veritra.Storage

open Relational Machine

variable {k : RevocationKey}

/-- The device is not revoked and its account is a member, so that it can confirm. -/
def Store.canConfirm (s : Store) (conversationID : ConversationID) (deviceID : DeviceID) : Prop :=
  ∃ d ∈ s.devices, d.id = deviceID ∧ d.revokedAt = none ∧ s.isConversationMember conversationID d.accountID

/-- Every confirmation that an open revocation waits for can be given, apart from those of the exempt
devices, which are about to be released. -/
structure Confirmable (exempt : DeviceID → Prop) (s : Store) : Prop where
  belong : s.rowsBelong
  waits : ∀ k deviceID, s.owes k deviceID → s.revocationState k ≠ some .completed →
    exempt deviceID ∨ s.canConfirm k.1 deviceID

namespace Confirmable

variable {conversationID : ConversationID} {revokedDeviceID : DeviceID} {deviceIDs : List DeviceID}
  {input : MLSCommitBundleInput} {base : Store} {exempt exempt' : DeviceID → Prop} {s s' : Store}
  {now : Time} {accountID : AccountID} {deviceID : DeviceID} {result : MLSCommitBundleResult}
  {newID : ℕ → MLSMessageID} {p : Device → Prop}

theorem canConfirm_of_writes (writes : RevocationWrites s s')
    (can : s.canConfirm conversationID deviceID) : s'.canConfirm conversationID deviceID := by
  unfold Store.canConfirm Store.isConversationMember at can ⊢
  rwa [writes.devices, writes.memberships]

section

variable (confirmable : Confirmable exempt s)
include confirmable

/-- A step that leaves the revocation tables, and takes the ability to confirm from exempt devices
only. -/
theorem frame (revocations : s'.mls.revocations = s.mls.revocations)
    (required : s'.mls.requiredDevices = s.mls.requiredDevices)
    (can : ∀ k deviceID, s.owes k deviceID → s.revocationState k ≠ some .completed →
      exempt deviceID ∨ s.canConfirm k.1 deviceID → exempt' deviceID ∨ s'.canConfirm k.1 deviceID) :
    Confirmable exempt' s' where
  belong row mem := by
    rw [Store.revocationState_congr revocations]
    exact confirmable.belong row (required ▸ mem)
  waits k deviceID owed isOpen := by
    rw [Store.revocationState_congr revocations] at isOpen
    have owedBefore := (Store.owes_congr required).mp owed
    exact can k deviceID owedBefore isOpen (confirmable.waits k deviceID owedBefore isOpen)

theorem weaken (widens : ∀ device, exempt device → exempt' device) : Confirmable exempt' s :=
  confirmable.frame rfl rfl fun _ device _ _ either => either.imp_left (widens device)

theorem completes {keys : RevocationKey → Prop}
    (completes : Completes keys s s') : Confirmable exempt s' where
  belong row mem := by
    have known := confirmable.belong row (completes.required ▸ mem)
    by_cases hit : keys row.revocation ∧ s.readyToComplete row.revocation
    · rw [completes.done _ hit.1 hit.2]
      exact Option.some_ne_none _
    · rw [completes.other _ hit]
      exact known
  waits k deviceID owed isOpen := by
    have miss : ¬ (keys k ∧ s.readyToComplete k) := fun hit => isOpen (completes.done k hit.1 hit.2)
    rw [completes.other k miss] at isOpen
    exact (confirmable.waits k deviceID (completes.owes.mp owed) isOpen).imp_right
      (canConfirm_of_writes completes.writes)

theorem waives {waived : RevocationKey → DeviceID → Prop} (waives : Waives waived s s')
    (narrows : ∀ k deviceID, ¬ waived k deviceID → exempt deviceID → exempt' deviceID) :
    Confirmable exempt' s' where
  belong row mem := by
    obtain ⟨old, oldMember, same⟩ := waives.required row mem
    rw [waives.state, same]
    exact confirmable.belong old oldMember
  waits k deviceID owed isOpen := by
    rw [waives.state] at isOpen
    obtain ⟨owedBefore, kept⟩ := (waives.owes k deviceID).mp owed
    exact (confirmable.waits k deviceID owedBefore isOpen).imp (narrows k deviceID kept)
      (canConfirm_of_writes waives.writes)

theorem submits {senderDeviceID : DeviceID}
    (submits : Store.Submits k senderDeviceID s s') : Confirmable exempt s' := by
  have state : ∀ k', s'.revocationState k' = s.revocationState k' ∨
      (s.revocationState k' = some .pending ∧ s'.revocationState k' = some .commitSubmitted) := by
    intro k'
    by_cases hit : k' = k ∧ s.revocationState k' = some .pending
    · obtain ⟨rfl, pending⟩ := hit
      exact .inr ⟨pending, submits.submitted pending⟩
    · exact .inl (submits.other k' hit)
  constructor
  · intro row mem
    obtain ⟨old, oldMember, same⟩ := submits.required row mem
    rcases state row.revocation with unchanged | ⟨-, submitted⟩
    · rw [unchanged, same]
      exact confirmable.belong old oldMember
    · rw [submitted]
      exact Option.some_ne_none _
  · intro k' deviceID owed isOpen
    have openBefore : s.revocationState k' ≠ some .completed := by
      rcases state k' with unchanged | ⟨pending, -⟩
      · rwa [unchanged] at isOpen
      · rw [pending]
        simp
    exact (confirmable.waits k' deviceID ((submits.owes k' deviceID).mp owed).1 openBefore).imp_right
      (canConfirm_of_writes submits.writes)

theorem drops (drops : Store.Drops conversationID s s') : Confirmable exempt s' where
  belong row mem := by
    obtain ⟨old, fresh⟩ := drops.required row mem
    rw [drops.kept _ fresh]
    exact confirmable.belong row old
  waits k deviceID owed isOpen := by
    obtain ⟨owedBefore, fresh⟩ := (drops.owes k deviceID).mp owed
    rw [drops.kept k fresh] at isOpen
    exact (confirmable.waits k deviceID owedBefore isOpen).imp_right (canConfirm_of_writes drops.writes)

/-- A queued revocation waits for devices that can confirm it. -/
theorem queues (queues : Store.Queues conversationID revokedDeviceID s s') : Confirmable exempt s' where
  belong row mem := by
    by_cases here : row.revocation = (conversationID, revokedDeviceID)
    · rw [here, queues.pending]
      exact Option.some_ne_none _
    · rw [queues.other _ here]
      exact confirmable.belong row ((queues.required row mem).resolve_right here)
  waits k deviceID owed isOpen := by
    rcases queues.owes k deviceID owed with owedBefore | ⟨rfl, d, listed, rfl⟩
    · have elsewhere : k ≠ (conversationID, revokedDeviceID) := by
        -- No row can belong to a revocation that did not exist.
        rintro rfl
        obtain ⟨row, mem, same, -⟩ := owedBefore
        exact confirmable.belong row mem (same ▸ queues.free)
      rw [queues.other k elsewhere] at isOpen
      exact (confirmable.waits k deviceID owedBefore isOpen).imp_right
        (canConfirm_of_writes queues.writes)
    · have chosen := List.mem_filter.mp listed
      have eligible := of_decide_eq_true chosen.2
      exact .inr (canConfirm_of_writes queues.writes ⟨d, chosen.1, rfl, eligible.2.1, eligible.1⟩)

theorem queueEach (keys : List (ConversationID × DeviceID)) :
    Confirmable exempt (s.queueEach accountID deviceID now keys) := by
  induction keys generalizing s with
  | nil => exact confirmable
  | cons key rest ih =>
    refine ih ?_
    rcases s.queue_ok accountID deviceID now key.1 key.2 with ⟨same, -⟩ | queued
    · rw [same]
      exact confirmable
    · exact confirmable.queues queued

end

/-- Retiring a device releases it. -/
theorem retire (confirmable : Confirmable (fun device => device = deviceID ∨ exempt device) s) :
    Confirmable exempt (s.retireMLSDevice accountID deviceID now) := by
  obtain ⟨middle, waived, completed⟩ :=
    (s.queueMLSRevocations accountID deviceID now).release_ok deviceID now
  refine completes (waives (confirmable.queueEach _) waived ?_) completed
  intro k device kept isExempt
  exact isExempt.resolve_left kept

theorem retireEach (confirmable : Confirmable (fun device => device ∈ deviceIDs ∨ exempt device) s) :
    Confirmable exempt (s.retireEach accountID now deviceIDs) := by
  induction deviceIDs generalizing s with
  | nil => exact confirmable.weaken fun _ either => either.resolve_left List.not_mem_nil
  | cons deviceID rest ih =>
    refine ih (retire (confirmable.weaken fun device either => ?_))
    exact or_assoc.mp (either.imp_left List.mem_cons.mp)

/-- Marking devices revoked exempts them until they are released. -/
theorem mark [DecidablePred p] (confirmable : Confirmable exempt s)
    (marked : ∀ d ∈ s.devices, p d → exempt' d.id) (widens : ∀ device, exempt device → exempt' device) :
    Confirmable exempt' (s.markRevoked p now) := by
  refine confirmable.frame rfl rfl fun k device _ _ either => ?_
  rcases either with isExempt | ⟨d, mem, rfl, live, inConversation⟩
  · exact .inl (widens device isExempt)
  · by_cases hit : p d
    · exact .inl (marked d mem hit)
    · refine .inr ⟨d, ?_, rfl, live, inConversation⟩
      simp only [Store.markRevoked]
      exact Table.mem_update.mpr (.inl ⟨mem, hit⟩)

theorem revoked (confirmable : Confirmable (fun device => device = deviceID ∨ exempt device) s) :
    Confirmable exempt (s.revoked accountID deviceID now) := by
  have marked : Confirmable (fun device => device = deviceID ∨ exempt device)
      (s.markRevoked (fun d => d.id = deviceID ∧ d.accountID = accountID) now) :=
    confirmable.mark (fun _ _ hit => .inl hit.1) fun _ isExempt => isExempt
  exact retire (marked.frame rfl rfl fun _ _ _ _ either => either)

theorem revokeEach (confirmable : Confirmable (fun device => device ∈ deviceIDs ∨ exempt device) s)
    (ok : s.revokeEach accountID now deviceIDs = .ok s') : Confirmable exempt s' := by
  induction deviceIDs generalizing s with
  | nil =>
    cases ok
    exact confirmable.weaken fun _ either => either.resolve_left List.not_mem_nil
  | cons deviceID rest ih =>
    obtain ⟨⟨eventID, middle⟩, first, ok⟩ := bind_eq_ok.mp ok
    rw [Store.revokeDeviceTx_ok first] at ok
    refine ih (revoked (confirmable.weaken fun device either => ?_)) ok
    exact or_assoc.mp (either.imp_left List.mem_cons.mp)

theorem harmless (confirmable : Confirmable exempt s) (harmless : Harmless s s') : Confirmable exempt s' := by
  refine confirmable.frame (by rw [harmless.mls]) (by rw [harmless.mls]) fun k device _ _ either => ?_
  refine either.imp_right ?_
  rintro ⟨d, mem, same, live, inConversation⟩
  exact ⟨d, harmless.devices d mem, same, live, harmless.members _ _ inConversation⟩

section

variable (confirmable : Confirmable exempt s)

include confirmable

theorem recovered {middle : Store}
    (recovered : s.Recovered now accountID middle s') : Confirmable exempt s' := by
  refine harmless (revokeEach (confirmable.mark ?_ fun _ isExempt => .inr isExempt) recovered.revoked)
    recovered.added.toHarmless
  intro d mem hit
  exact .inl (Store.mem_accountDeviceIDs.mpr ⟨d, mem, hit.1, hit.2, rfl⟩)

theorem deleted {retired : Store}
    (deleted : s.AccountDeleted now accountID retired s') : Confirmable exempt s' := by
  obtain ⟨blobDeletions, rfl⟩ := deleted.retiring
  have start : Confirmable exempt { s with blobDeletions } :=
    confirmable.frame rfl rfl fun _ _ _ _ either => either
  have marked : Confirmable (fun device => device ∈ s.accountDeviceIDs accountID (fun _ => True) ∨
      exempt device) ({ s with blobDeletions }.markRevoked (·.accountID = accountID) now) :=
    start.mark (fun d mem hit => .inl (Store.mem_accountDeviceIDs.mpr ⟨d, mem, hit, trivial, rfl⟩))
      fun _ isExempt => .inr isExempt
  have retired : Confirmable exempt (({ s with blobDeletions }.markRevoked (·.accountID = accountID)
      now).retireEach accountID now (s.accountDeviceIDs accountID fun _ => True)) := retireEach marked
  refine retired.frame (by rw [deleted.mls]) (by rw [deleted.mls]) fun k device _ _ either => ?_
  refine either.imp_right ?_
  rintro ⟨d, mem, same, live, m, listed, scope, account⟩
  -- The account's own devices are revoked, so the membership is another account's.
  have other : d.accountID ≠ accountID := by
    intro own
    rw [(Store.retireEach_writes _ _ _ _).devices] at mem
    simp only [Store.markRevoked] at mem
    rcases Table.mem_update.mp mem with ⟨-, miss⟩ | ⟨old, -, -, rfl⟩
    · exact miss own
    · simp at live
  refine ⟨d, deleted.devices ▸ mem, same, live, m, ?_, scope, account⟩
  rw [deleted.memberships]
  exact Table.mem_delete.mpr ⟨listed, fun own => other (account.symm.trans own)⟩

theorem created (created : s.createMLSGroup now input = .ok base) : Confirmable exempt base := by
  obtain ⟨middle, recorded, rfl⟩ := Store.createMLSGroup_ok created
  refine drops ?_ (middle.drop_ok input.conversationID)
  obtain ⟨_, _, rfl⟩ := recorded.frame
  exact confirmable.frame rfl rfl fun _ _ _ _ either => either

theorem submitted (conversationID : ConversationID)
    (revokedDeviceID : DeviceID) (commitMessageID : MLSMessageID) (senderDeviceID : DeviceID)
    (now : Time) : Confirmable exempt
      (s.submitRevocation conversationID revokedDeviceID commitMessageID senderDeviceID now).2 := by
  obtain ⟨middle, submits, completes⟩ :=
    s.submit_ok conversationID revokedDeviceID commitMessageID senderDeviceID now
  exact (confirmable.submits submits).completes completes

end

theorem written {epoch : ℕ} (confirmable : Confirmable exempt base)
    (written : base.writeCommit now newID input epoch = .ok (result, s')) :
    Confirmable exempt s' := by
  obtain ⟨commit, welcomes, middle, writes, -, -, -, rfl⟩ := Store.writeCommit_ok written
  have placed : Confirmable exempt middle := by
    obtain ⟨_, _, _, _, rfl⟩ := writes.frame
    exact confirmable.frame rfl rfl fun _ _ _ _ either => either
  refine drops ?_ (Store.drop_ok _ input.conversationID)
  split
  · exact placed.submitted _ _ _ _ _
  · exact placed

section

variable (confirmable : Confirmable exempt s)

include confirmable

theorem bundle {limits : Limits}
    (outcome : Store.BundleOutcome limits s now newID input result s') : Confirmable exempt s' :=
  outcome.induct confirmable (fun _ _ isCreated => confirmable.created isCreated)
    fun _ _ _ _ _ placed isWritten => placed.written isWritten

theorem single {id : MLSMessageID} {input : CreateMLSMessageInput} {result : CreateMLSMessageResult} (outcome : s.MessageOutcome now id input result s') :
    Confirmable exempt s' := by
  cases outcome with
  | replayed => exact confirmable
  | @stored _ message middle _ _ _ storing _ after =>
    have stored : Confirmable exempt middle := by
      obtain ⟨_, _, rfl⟩ := storing.frame
      exact confirmable.frame rfl rfl fun _ _ _ _ either => either
    rw [after]
    split
    · exact stored.submitted _ _ _ _ _
    · exact stored

theorem confirmed {eventID : EventID}
    (confirmed : s.confirmMLSRevocation now conversationID revokedDeviceID accountID deviceID =
      .ok (eventID, s')) : Confirmable exempt s' := by
  rcases Store.confirm_ok confirmed with rfl | ⟨middle, waived, completed⟩
  · exact confirmable
  · exact completes (confirmable.waives waived fun _ _ _ isExempt => isExempt) completed

end

end Confirmable

/-- An open revocation of the conversation waits for the device. -/
def Store.waitsFor (s : Store) (conversationID : ConversationID) (deviceID : DeviceID) : Prop :=
  ∃ r ∈ s.mls.revocations, r.conversationID = conversationID ∧ r.state ≠ .completed ∧
    ∃ row ∈ s.mls.requiredDevices, row.revocation = r.key ∧ row.deviceID = deviceID ∧ row.confirmedAt = none

/-- The call does not take the ability to confirm from a device that is waited for: it removes no
member with such a device from the conversation, and revokes no such device without an event. -/
def KeepsConfirmers (s : Store) : Call → Prop
  | .removeConversationMember _ conversationID _ targetAccountID =>
    ∀ d ∈ s.devices, d.accountID = targetAccountID → ¬ s.waitsFor conversationID d.id
  | .revokeDevice _ _ deviceID => ∀ conversationID, ¬ s.waitsFor conversationID deviceID
  | _ => True

namespace Confirmable

variable {limits : Limits} {s s' : Store} {call : Call} {given : Answer}

theorem waitsFor {exempt : DeviceID → Prop} (confirmable : Confirmable exempt s)
    {deviceID : DeviceID} (owed : s.owes k deviceID)
    (isOpen : s.revocationState k ≠ some .completed) : s.waitsFor k.1 deviceID := by
  obtain ⟨row, mem, rfl, device, waiting⟩ := owed
  obtain ⟨state, known⟩ := Option.ne_none_iff_exists'.mp (confirmable.belong row mem)
  obtain ⟨r, revocation, same, isState⟩ := Store.revocationState_eq_some.mp known
  refine ⟨r, revocation, congrArg Prod.fst same, ?_, row, mem, same.symm, device, waiting⟩
  rw [isState]
  rintro rfl
  exact isOpen known

theorem step (confirmable : Confirmable (fun _ => False) s) (allowed : KeepsConfirmers s call)
    (ok : step limits s call = .ok (given, s')) : Confirmable (fun _ => False) s' := by
  cases effect_of_step ok with
  | harmless _ harmless => exact confirmable.harmless harmless
  | removed quiet devices memberships =>
    refine confirmable.frame (by rw [quiet.mls]) (by rw [quiet.mls]) fun k device owed isOpen either => ?_
    refine either.imp_right ?_
    rintro ⟨d, mem, rfl, live, m, listed, scope, account⟩
    refine ⟨d, devices ▸ mem, rfl, live, m, ?_, scope, account⟩
    rw [memberships]
    refine Table.mem_delete.mpr ⟨listed, ?_⟩
    rintro ⟨here, target⟩
    have waits := confirmable.waitsFor owed isOpen
    rw [Scope.conversation.inj (scope.symm.trans here)] at waits
    exact allowed d mem (account.symm.trans target) waits
  | @marked now accountID deviceID =>
    refine confirmable.frame rfl rfl fun k device owed isOpen either => ?_
    refine either.imp_right ?_
    rintro ⟨d, mem, rfl, live, inConversation⟩
    refine ⟨d, ?_, rfl, live, inConversation⟩
    simp only [Store.markRevoked]
    refine Table.mem_update.mpr (.inl ⟨mem, ?_⟩)
    rintro ⟨rfl, -⟩
    exact allowed k.1 (confirmable.waitsFor owed isOpen)
  | revoked => exact revoked (confirmable.weaken fun _ => False.elim)
  | recovered isRecovered => exact confirmable.recovered isRecovered
  | deleted isDeleted => exact confirmable.deleted isDeleted
  | bundle _ _ outcome => exact confirmable.bundle outcome
  | single _ outcome => exact confirmable.single outcome
  | confirmed isConfirmed => exact confirmable.confirmed isConfirmed
  | message _ writes =>
    refine confirmable.frame (by rw [writes.mls]) (by rw [writes.mls]) fun k device _ _ either => ?_
    unfold Store.canConfirm Store.isConversationMember at either ⊢
    rwa [writes.devices, writes.memberships]
  | pruned isPruned =>
    obtain ⟨_, _, _, rfl⟩ := (Store.pruneSyncEventsBatch_ok isPruned).frame
    exact confirmable.frame rfl rfl fun _ _ _ _ either => either

end Confirmable

/-- In every run whose calls keep confirmers, each device that an open revocation waits for is an
unrevoked device of a current member, and its confirmation is accepted once the commit is in. -/
theorem open_revocations_confirmable {limits : Limits} {history : List Entry} {s : Store}
    (run : Run (step limits) KeepsConfirmers Store.init history s) :
    ∀ r ∈ s.mls.revocations, r.state ≠ .completed → ∀ row ∈ s.mls.requiredDevices,
      row.revocation = r.key → row.confirmedAt = none →
      ∃ d ∈ s.devices, d.id = row.deviceID ∧ d.revokedAt = none ∧
        s.isConversationMember r.conversationID d.accountID ∧
        (r.state = .commitSubmitted → ∀ now, ∃ confirmed, s.confirmMLSRevocation now r.conversationID
          r.revokedDeviceID d.accountID row.deviceID = .ok confirmed) := by
  have confirmable : Confirmable (fun _ => False) s := by
    refine run.preserves (Confirmable fun _ => False) ?_ fun _ _ _ _ allowed confirmable ok =>
      confirmable.step allowed ok
    exact ⟨fun row member => absurd member (Table.not_mem_empty row),
      fun k deviceID ⟨row, member, _⟩ => absurd member (Table.not_mem_empty row)⟩
  intro r revocation isOpen row member belongs waiting
  have owed : s.owes r.key row.deviceID := ⟨row, member, belongs, rfl, waiting⟩
  have state := Store.revocationState_of_mem revocation
  have can := confirmable.waits r.key row.deviceID owed
    (by rw [state]; exact fun completed => isOpen (Option.some.inj completed))
  obtain ⟨d, device, same, live, inConversation⟩ := can.resolve_left fun impossible => impossible
  refine ⟨d, device, same, live, inConversation, ?_⟩
  intro submitted now
  unfold Store.confirmMLSRevocation
  rw [if_pos]
  · exact ⟨_, rfl⟩
  · exact ⟨⟨row, member, congrArg Prod.fst belongs, congrArg Prod.snd belongs, rfl, waiting⟩,
      inConversation, r, revocation, rfl, rfl, submitted⟩

namespace Example

def carol : AccountID := "acct_cccccccccccccccccccccccccccccccc"

/-- Alice's group with Bob and Carol, with one device each. -/
def trio : List Call :=
  [.registerAccount 0 alice .owner "alice-phone",
    .registerAccount 0 bob .member "bob-phone",
    .registerAccount 0 carol .member "carol-phone",
    .createOrGetConversation 1 "room" ⟨.group, none, none, none, alice, none, [bob, carol]⟩,
    .createMLSCommitBundle 2 (ids "first") ⟨"room", alice, "alice-phone", 0, "add", [1], [2],
      [⟨bob, "bob-phone"⟩, ⟨carol, "carol-phone"⟩], [], ""⟩]

/-- Bob's device is revoked, and Alice commits its removal before Carol confirmed it. -/
def bobRemoved : List Call :=
  trio ++ [.revokeDeviceWithSyncEvent 3 bob "bob-phone", .createMLSCommitBundle 4 (ids "second") aliceRemovesBob]

/-- Carol leaves the conversation without confirming. -/
def carolLeft : List Call :=
  bobRemoved ++ [.removeConversationMember 5 "room" carol carol]

end Example

open Example in
/-- Carol's device is waited for, and its confirmation is accepted. -/
theorem open_revocations_confirmable_carol :
    ∃ r ∈ (exec (step limits) Store.init bobRemoved).mls.revocations,
      ∃ row ∈ (exec (step limits) Store.init bobRemoved).mls.requiredDevices,
        row.deviceID = "carol-phone" ∧
        ∃ d ∈ (exec (step limits) Store.init bobRemoved).devices, d.id = row.deviceID ∧
          ∀ now, ∃ confirmed, (exec (step limits) Store.init bobRemoved).confirmMLSRevocation now
            r.conversationID r.revokedDeviceID d.accountID row.deviceID = .ok confirmed := by
  have allowed : ∀ entry ∈ execHistory (step limits) Store.init bobRemoved,
      KeepsConfirmers entry.before entry.call := by
    intro entry member
    have listed := call_mem_of_mem_execHistory member
    simp only [bobRemoved, trio, List.cons_append, List.nil_append, List.mem_cons, List.not_mem_nil, or_false] at listed
    rcases listed with same | same | same | same | same | same | same <;> rw [same] <;> trivial
  have run := Run.start.extend bobRemoved allowed
  have waiting : ∃ r ∈ (exec (step limits) Store.init bobRemoved).mls.revocations,
      r.state = .commitSubmitted ∧
      ∃ row ∈ (exec (step limits) Store.init bobRemoved).mls.requiredDevices,
        row.revocation = r.key ∧ row.confirmedAt = none ∧ row.deviceID = "carol-phone" := by
    decide +kernel
  obtain ⟨r, revocation, submitted, row, member, belongs, unconfirmed, carols⟩ := waiting
  obtain ⟨d, device, same, -, -, accepted⟩ := open_revocations_confirmable run r revocation
    (by rw [submitted]; decide) row member belongs unconfirmed
  exact ⟨r, revocation, row, member, carols, d, device, same, accepted submitted⟩

open Example in
/-- After Carol left, the revocation waits for a device that can no longer confirm it. -/
theorem left_member_still_awaited :
    ∃ history s, ServerRun limits history s ∧
      ∃ r ∈ s.mls.revocations, r.state = .commitSubmitted ∧
        ∃ row ∈ s.mls.requiredDevices, row.revocation = r.key ∧ row.confirmedAt = none ∧
          (¬ ∃ d ∈ s.devices, d.id = row.deviceID ∧ d.revokedAt = none ∧
            s.isConversationMember r.conversationID d.accountID) ∧
          (serve (step limits) s (.confirmMLSRevocation 6 r.conversationID r.revokedDeviceID carol
            row.deviceID)).answer = .error .forbidden := by
  refine ⟨_, _, run_exec (step limits) Store.init carolLeft, ?_⟩
  decide +kernel

end Veritra.Storage
