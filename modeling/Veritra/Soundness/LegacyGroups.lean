import Veritra.Soundness.RosterHistory

/-! # Groups from before rosters were tracked

A conversation that stores MLS messages and has no recorded group is a legacy one, and bundles leave
it alone. The test reads the retained messages, so it forgets a legacy group once retention has
removed the last of them. As long as one message is kept, no group is ever recorded for it.
-/

namespace Veritra.Storage

open Relational Machine

variable {call : Call} {given : Answer}

namespace Store

/-- The conversation stores an MLS message and has no recorded group. -/
def isLegacy (s : Store) (conversationID : ConversationID) : Prop :=
  s.hasMLSMessage conversationID ∧ ¬ s.hasMLSGroup conversationID
  deriving Decidable

variable {s s' : Store} {limits : Limits} {now : Time} {newID : ℕ → MLSMessageID}
  {input : MLSCommitBundleInput} {result : MLSCommitBundleResult} {conversationID : ConversationID}

/-- A bundle for a legacy conversation is the retry of a commit that it stores. -/
theorem BundleOutcome.of_legacy (legacy : s.isLegacy input.conversationID)
    (outcome : BundleOutcome limits s now newID input result s') :
    s' = s ∧ ∃ commit ∈ s.mls.messages, commit.conversationID = input.conversationID ∧
      commit.senderDeviceID = input.senderDeviceID ∧ commit.idempotencyKey = input.idempotencyKey ∧
      commit.payload = input.commit ∧ result = ⟨some commit, [], 0, true, 0⟩ := by
  have noGroup := mlsGroupEpoch_eq_none.mpr legacy.2
  have notCreated : ∀ base, s.createMLSGroup now input ≠ .ok base := by
    intro base created
    obtain ⟨_, recorded, -⟩ := createMLSGroup_ok created
    exact recorded.noMessages legacy.1
  cases outcome with
  | @replayed existing found same =>
    obtain ⟨mem, key⟩ := IndexedTable.findIndex?_eq_some.mp found
    refine ⟨rfl, existing, mem, same.1, congrArg Prod.fst key, congrArg Prod.snd key, same.2.2, ?_⟩
    rw [noGroup]
    rfl
  | known _ group =>
    rw [noGroup] at group
    cases group
  | recorded _ _ created => exact absurd created (notCreated _)
  | accepted _ _ placed =>
    cases placed with
    | recorded group =>
      rw [noGroup] at group
      cases group
    | created _ _ created => exact absurd created (notCreated _)

theorem BundleOutcome.keeps (outcome : BundleOutcome limits s now newID input result s')
    {m : MLSMessage} (mem : m ∈ s.mls.messages) : m ∈ s'.mls.messages := by
  refine outcome.induct (P := fun s => m ∈ s.mls.messages) mem (fun base _ isCreated => ?_)
    fun base epoch result s' _ mem written => ?_
  · obtain ⟨middle, recorded, rfl⟩ := createMLSGroup_ok isCreated
    obtain ⟨_, _, rfl⟩ := recorded.frame
    exact mem
  · obtain ⟨commit, welcomes, middle, writes, -, -, -, rfl⟩ := writeCommit_ok written
    rw [(finishCommit_writes middle now input commit).mlsMessages]
    exact (writes.messages m).mpr (.inl mem)

end Store

/-- A prune keeps, of each legacy conversation, a message whose event is not before the cutoff. -/
def KeepsLegacyMessages (s : Store) : Call → Prop
  | .pruneSyncEventsBatch _ olderThan => ∀ conversationID, s.isLegacy conversationID →
    ∃ m ∈ s.mls.messages, m.conversationID = conversationID ∧
      ∀ e ∈ s.events, e.id = m.syncEventID → olderThan ≤ e.createdAt
  | _ => True

namespace Store

variable {s s' : Store} {limits : Limits} {conversationID : ConversationID}

theorem isLegacy.step (legacy : s.isLegacy conversationID) (allowed : KeepsLegacyMessages s call)
    (ok : step limits s call = .ok (given, s')) : s'.isLegacy conversationID := by
  have unchanged : SameMLS s s' → s'.isLegacy conversationID := by
    intro same
    unfold isLegacy hasMLSMessage hasMLSGroup at legacy ⊢
    rwa [same.messages, same.groups]
  obtain ⟨m, mem, here⟩ := legacy.1
  cases effect_of_step ok with
  | harmless _ harmless => exact unchanged (.of_mls harmless.mls)
  | removed quiet => exact unchanged (.of_mls quiet.mls)
  | marked => exact unchanged (.of_mls rfl)
  | revoked => exact unchanged (s.revoked_sameMLS _ _ _)
  | recovered recovered => exact unchanged recovered.sameMLS
  | deleted deleted => exact unchanged deleted.sameMLS
  | confirmed confirmed => exact unchanged (.of_writes (confirmMLSRevocation_writes confirmed))
  | message _ writes => exact unchanged (.of_mls writes.mls)
  | @bundle now newID request _ _ _ _ outcome =>
    by_cases own : request.trim.conversationID = conversationID
    · rw [← own] at legacy ⊢
      rw [(outcome.of_legacy legacy).1]
      exact legacy
    · refine ⟨⟨m, outcome.keeps mem, here⟩, ?_⟩
      rw [← mlsGroupEpoch_eq_none, outcome.other_epoch (Ne.symm own), mlsGroupEpoch_eq_none]
      exact legacy.2
  | single _ outcome =>
    rcases outcome.after_writes with rfl | ⟨row, message, middle, -, storing, after⟩
    · exact legacy
    · refine ⟨⟨m, ?_, here⟩, ?_⟩
      · rw [after.mlsMessages]
        exact (storing.messages m).mpr (.inl mem)
      · obtain ⟨_, _, rfl⟩ := storing.frame
        unfold hasMLSGroup
        rw [after.groups]
        exact legacy.2
  | pruned isPruned =>
    have pruned := pruneSyncEventsBatch_ok isPruned
    obtain ⟨kept, keptMember, keptHere, recent⟩ := allowed conversationID legacy
    refine ⟨⟨kept, (pruned.messages kept).mpr ⟨keptMember, ?_⟩, keptHere⟩, ?_⟩
    · rintro ⟨e, listed, same⟩
      obtain ⟨event, old⟩ := mem_of_mem_oldSyncEvents listed
      exact absurd (recent e event same) (not_le.mpr old)
    · obtain ⟨_, _, _, rfl⟩ := pruned.frame
      exact legacy.2

/-- A single message that was answered is stored in a conversation without a group. -/
theorem isLegacy_of_single {now : Time} {id : MLSMessageID} {request : CreateMLSMessageInput}
    (ok : Storage.step limits s (.createMLSMessage now id request) = .ok (given, s')) :
    s'.isLegacy request.trim.conversationID := by
  have sameGroups := (effect_of_step ok).sameGroups nofun
  cases effect_of_step ok with
  | single noGroup outcome =>
    refine ⟨?_, ?_⟩
    · cases outcome with
      | replayed found here =>
        exact ⟨_, (IndexedTable.findIndex?_eq_some.mp found).1, here⟩
      | @stored row message middle _ _ here storing _ after =>
        have messages : s'.mls.messages = middle.mls.messages := by
          rw [after]
          split
          · exact (submitRevocation_writes _ _ _ _ _ now).mlsMessages
          · rfl
        refine ⟨message, ?_, ?_⟩
        · rw [messages]
          exact (storing.messages message).mpr (.inr rfl)
        · rw [storing.message_eq]
          exact here
    · unfold hasMLSGroup
      rw [sameGroups.groups]
      exact noGroup
  | harmless isHarmless => cases isHarmless
  | message isMessage => cases isMessage

/-- Whatever bundle is sent for the conversation, the store stays as it is, and the bundle is refused
unless it repeats the key and the payload of a stored commit, which is then its answer. -/
def refusesBundles (limits : Limits) (s : Store) (conversationID : ConversationID) : Prop :=
  ∀ now newID (request : MLSCommitBundleInput), request.trim.conversationID = conversationID →
    let served := serve (Storage.step limits) s (.createMLSCommitBundle now newID request)
    served.after = s ∧ ((∃ refusal, served.answer = .error refusal) ∨
      ∃ commit ∈ s.mls.messages, commit.conversationID = conversationID ∧
        commit.senderDeviceID = request.senderDeviceID ∧
        commit.idempotencyKey = request.trim.idempotencyKey ∧ commit.payload = request.commit ∧
        served.answer = .ok (.bundle ⟨some commit, [], 0, true, 0⟩))

theorem isLegacy.refusesBundles (legacy : s.isLegacy conversationID) :
    refusesBundles limits s conversationID := by
  intro now newID request here
  dsimp only
  cases outcome : Storage.step limits s (.createMLSCommitBundle now newID request) with
  | error refusal =>
    rw [serve_of_error outcome]
    exact ⟨rfl, .inl ⟨refusal, rfl⟩⟩
  | ok answered =>
    obtain ⟨given, after⟩ := answered
    rw [serve_of_ok outcome]
    cases effect_of_step outcome with
    | bundle _ _ isBundle =>
      rw [← here] at legacy
      obtain ⟨rfl, commit, mem, conversation, sender, key, payload, rfl⟩ := isBundle.of_legacy legacy
      exact ⟨rfl, .inr ⟨commit, mem, conversation.trans here, sender, key, payload, rfl⟩⟩
    | harmless isHarmless => cases isHarmless
    | message isMessage => cases isMessage

end Store

/-- From its first single message on, a conversation is a legacy one. -/
theorem legacy_since {limits : Limits} {history : List Entry} {s : Store}
    (run : Run (step limits) KeepsLegacyMessages Store.init history s) {entry : Entry} {now : Time}
    {newID : MLSMessageID} {request : CreateMLSMessageInput} {given : Answer} (mem : entry ∈ history)
    (isSingle : entry.call = .createMLSMessage now newID request) (answered : entry.answer = .ok given) :
    s.isLegacy request.trim.conversationID := by
  obtain ⟨earlier, later, rfl⟩ := List.append_of_mem mem
  refine run.after_entry.preserves (·.isLegacy request.trim.conversationID) ?_ ?_
  · rcases run.committed_or_refused mem with ⟨_, -, ok⟩ | ⟨_, refused, -⟩
    · rw [isSingle] at ok
      exact Store.isLegacy_of_single ok
    · cases refused.symm.trans answered
  · exact fun _ _ _ _ allowed legacy ok => legacy.step allowed ok

/-- In every run whose prunes keep legacy messages: once a single message was stored in a conversation
without a group, the conversation has no recorded group and no roster, and every bundle for it is
refused, or answered as the retry of a stored commit, without a change. -/
theorem legacy_group_never_recorded {limits : Limits} {history : List Entry} {s : Store}
    (run : Run (step limits) KeepsLegacyMessages Store.init history s) :
    ∀ entry ∈ history, ∀ now id request given, entry.call = .createMLSMessage now id request →
      entry.answer = .ok given →
      ¬ s.hasMLSGroup request.trim.conversationID ∧
      (∀ deviceID, ¬ s.activeMLSDevice request.trim.conversationID deviceID) ∧
      Store.refusesBundles limits s request.trim.conversationID := by
  intro entry member now id request given isSingle answered
  have legacy := legacy_since run member isSingle answered
  refine ⟨legacy.2, fun deviceID ⟨row, stored, here, _⟩ => legacy.2 ?_, legacy.refusesBundles⟩
  -- A roster row belongs to a recorded group.
  obtain ⟨epoch, group, -⟩ := (RowSound.of_run run row stored).epoch
  obtain ⟨g, recorded, named, -⟩ := Store.mlsGroupEpoch_eq_some.mp group
  exact ⟨g, recorded, named.trans here⟩

namespace Example

/-- Alice stores a commit in the room without recording a group. -/
def aliceCommits : Call :=
  .createMLSMessage 2 "single" ⟨"room", alice, "alice-phone", "", "", "commit", [1], "first"⟩

/-- Retention removes the message, and Alice records a group. -/
def recordedAfterPrune : List Call :=
  room ++ [aliceCommits, .pruneSyncEventsBatch 100 50,
    .createMLSCommitBundle 101 (ids "late") ⟨"room", alice, "alice-phone", 0, "record", [], [], [], [], ""⟩]

end Example

open Example in
/-- After a prune that keeps the message, the room still has no group and refuses bundles. -/
theorem legacy_group_never_recorded_kept :
    ∃ history s, Run (step limits) KeepsLegacyMessages Store.init history s ∧
      ¬ s.hasMLSGroup "room" ∧ Store.refusesBundles limits s "room" := by
  have roomAllowed : ∀ entry ∈ execHistory (step limits) Store.init room,
      KeepsLegacyMessages entry.before entry.call := by
    intro entry member
    have listed := call_mem_of_mem_execHistory member
    simp only [room, List.mem_cons, List.not_mem_nil, or_false] at listed
    rcases listed with same | same | same <;> rw [same] <;> trivial
  have single := (Run.start.extend room roomAllowed).call aliceCommits trivial
  have recent : ∀ m ∈ (serve (step limits) (exec (step limits) Store.init room) aliceCommits).after.mls.messages,
      ∀ e ∈ (serve (step limits) (exec (step limits) Store.init room) aliceCommits).after.events,
        e.id = m.syncEventID → 2 ≤ e.createdAt := by decide +kernel
  have keeps : KeepsLegacyMessages
      (serve (step limits) (exec (step limits) Store.init room) aliceCommits).after
      (.pruneSyncEventsBatch 100 2) := by
    rintro c ⟨⟨m, member, here⟩, -⟩
    exact ⟨m, member, here, recent m member⟩
  have run := single.call _ keeps
  have accepted : (serve (step limits) (exec (step limits) Store.init room) aliceCommits).answer.isOk := by
    decide +kernel
  obtain ⟨given, answered⟩ := Served.exists_answer accepted
  have kept := legacy_group_never_recorded run _
    (List.mem_append_left _ (List.mem_append_right _ (List.mem_singleton.mpr rfl))) _ _ _ given
    serve_call answered
  exact ⟨_, _, run, kept.1, kept.2.2⟩

open Example in
/-- Once its only message is pruned, a legacy conversation gets a group and a roster. -/
theorem pruned_legacy_group_recorded :
    ∃ history s, ServerRun limits history s ∧ (∃ entry ∈ history, entry.after.isLegacy "room") ∧
      s.hasMLSGroup "room" ∧ s.activeMLSDevice "room" "alice-phone" := by
  refine ⟨_, _, run_exec (step limits) Store.init recordedAfterPrune, ?_⟩
  decide +kernel

end Veritra.Storage
