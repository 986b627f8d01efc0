import Veritra.Proofs.Storage.Effect

/-! # The accepted commits of a group form one chain

The recorded epoch of a group counts the accepted commits of its conversation, and a commit is
accepted only at the recorded epoch, so no interleaving of bundles leaves a gap or a fork. A retry
of an accepted commit is answered from its stored record, for a sender who is still a member.
-/

namespace Veritra.Storage

open Relational Machine

variable {s s' : Store} {conversationID other : ConversationID} {now : Time}
  {input request : MLSCommitBundleInput} {newID : ℕ → MLSMessageID} {result : MLSCommitBundleResult}
  {commit : MLSMessage}

namespace Store

variable {base : Store}

theorem mlsGroupEpoch_eq_some {epoch : ℕ} : s.mlsGroupEpoch conversationID = some epoch ↔
      ∃ g ∈ s.mls.groups, g.conversationID = conversationID ∧ g.epoch = epoch := by
  simp only [mlsGroupEpoch, Option.map_eq_some_iff, Table.find?_eq_some, and_assoc]

theorem mlsGroupEpoch_eq_none : s.mlsGroupEpoch conversationID = none ↔ ¬ s.hasMLSGroup conversationID := by
  simp only [mlsGroupEpoch, Option.map_eq_none_iff, Table.find?_eq_none, hasMLSGroup, not_exists, not_and]

theorem mlsGroupEpoch_congr
    (same : ∀ g, g.conversationID = conversationID → (g ∈ s'.mls.groups ↔ g ∈ s.mls.groups)) :
    s'.mlsGroupEpoch conversationID = s.mlsGroupEpoch conversationID := by
  refine Option.ext fun epoch => ?_
  rw [mlsGroupEpoch_eq_some, mlsGroupEpoch_eq_some]
  constructor <;> rintro ⟨g, mem, here, epoch⟩
  · exact ⟨g, (same g here).mp mem, here, epoch⟩
  · exact ⟨g, (same g here).mpr mem, here, epoch⟩

theorem advanceEpoch_epoch {epoch : ℕ} (now : Time) (group : s.mlsGroupEpoch conversationID = some epoch) :
    (s.advanceEpoch conversationID now).mlsGroupEpoch conversationID = some (epoch + 1) := by
  obtain ⟨g, mem, here, rfl⟩ := mlsGroupEpoch_eq_some.mp group
  refine mlsGroupEpoch_eq_some.mpr ⟨{ g with epoch := g.epoch + 1, updatedAt := now }, ?_, here, rfl⟩
  simp only [advanceEpoch]
  exact Table.mem_update.mpr (.inr ⟨g, mem, here, rfl⟩)

theorem advanceEpoch_other (now : Time) (different : other ≠ conversationID) :
    (s.advanceEpoch conversationID now).mlsGroupEpoch other = s.mlsGroupEpoch other := by
  refine mlsGroupEpoch_congr fun g here => ?_
  simp only [advanceEpoch, Table.mem_update]
  constructor
  · rintro (⟨mem, -⟩ | ⟨old, -, hit, rfl⟩)
    · exact mem
    · exact absurd (here.symm.trans hit) different
  · intro mem
    exact .inl ⟨mem, fun hit => different (here.symm.trans hit)⟩

theorem createMLSGroup_epoch (created : s.createMLSGroup now input = .ok base)
    (conversationID : ConversationID) :
    base.mlsGroupEpoch conversationID =
      if conversationID = input.conversationID then some 0 else s.mlsGroupEpoch conversationID := by
  obtain ⟨middle, recorded, rfl⟩ := createMLSGroup_ok created
  have same : (middle.dropStaleMLSRevocations input.conversationID).mlsGroupEpoch conversationID =
      middle.mlsGroupEpoch conversationID := rfl
  rw [same]
  split
  · next here =>
    subst here
    exact mlsGroupEpoch_eq_some.mpr ⟨_, (recorded.groups _).mpr (.inr rfl), rfl, rfl⟩
  · next different =>
    refine mlsGroupEpoch_congr fun g here => ?_
    rw [recorded.groups, or_iff_left]
    rintro rfl
    exact different here.symm

/-- A commit is placed at the recorded epoch, or at zero on a group it creates. -/
theorem Placed.epoch {epoch : ℕ} (placed : s.Placed now input base epoch) :
    base.mlsGroupEpoch input.conversationID = some epoch ∧ input.epoch = epoch ∧
      (s.mlsGroupEpoch input.conversationID = some epoch ∨ (s.mlsGroupEpoch input.conversationID = none ∧ epoch = 0)) ∧
      ∀ other ≠ input.conversationID, base.mlsGroupEpoch other = s.mlsGroupEpoch other := by
  cases placed with
  | recorded group active current => exact ⟨group, current, .inl group, fun _ _ => rfl⟩
  | created noGroup changes created =>
    have epochs := createMLSGroup_epoch created
    obtain ⟨_, recorded, -⟩ := createMLSGroup_ok created
    refine ⟨?_, recorded.epoch, .inr ⟨noGroup, rfl⟩, ?_⟩
    · rw [epochs, if_pos rfl]
    · intro other different
      rw [epochs, if_neg different]

/-- An accepted commit moves the epoch of its conversation by one and no other epoch. -/
theorem writeCommit_epoch {epoch : ℕ} (group : base.mlsGroupEpoch input.conversationID = some epoch)
    (written : base.writeCommit now newID input epoch = .ok (result, s')) :
    s'.mlsGroupEpoch input.conversationID = some (epoch + 1) ∧
      ∀ other ≠ input.conversationID, s'.mlsGroupEpoch other = base.mlsGroupEpoch other := by
  obtain ⟨commit, welcomes, middle, writes, -, -, -, rfl⟩ := writeCommit_ok written
  have groups : (middle.finishCommit now input commit).mls.groups =
      (base.advanceEpoch input.conversationID now).mls.groups :=
    (finishCommit_writes middle now input commit).groups.trans writes.groups
  have same : ∀ c, (middle.finishCommit now input commit).mlsGroupEpoch c =
      (base.advanceEpoch input.conversationID now).mlsGroupEpoch c := by
    intro c
    simp only [mlsGroupEpoch, groups]
  refine ⟨?_, ?_⟩
  · rw [same, advanceEpoch_epoch now group]
  · intro other different
    rw [same, advanceEpoch_other now different]

end Store

/-- The request and the stored record, when the call was a bundle whose commit was accepted. -/
def acceptedCommit (conversationID : ConversationID) (entry : Served Store Call StoreError Answer) :
    Option (MLSCommitBundleInput × MLSMessage) :=
  match entry.call, entry.answer with
  | .createMLSCommitBundle _ _ request, .ok (.bundle ⟨some commit, _, _, false, _⟩) =>
    if request.trim.conversationID = conversationID then some (request, commit) else none
  | _, _ => none

/-- The accepted commits of a conversation, in order. -/
def acceptedCommits (conversationID : ConversationID)
    (history : List (Served Store Call StoreError Answer)) : List (MLSCommitBundleInput × MLSMessage) :=
  history.filterMap (acceptedCommit conversationID)

/-- The stored record is the one of the request. -/
structure RecordOf (conversationID : ConversationID) (request : MLSCommitBundleInput)
    (commit : MLSMessage) : Prop where
  conversation : commit.conversationID = conversationID
  sender : commit.senderDeviceID = request.senderDeviceID
  kind : commit.kind = .commit
  payload : commit.payload = request.commit
  nonempty : request.commit ≠ []
  idempotencyKey : commit.idempotencyKey = request.trim.idempotencyKey

/-- The accepted commits so far, and the recorded epoch, form one chain. -/
structure CommitChain (conversationID : ConversationID)
    (commits : List (MLSCommitBundleInput × MLSMessage)) (epoch : Option ℕ) : Prop where
  unrecorded : epoch = none → commits = []
  count : ∀ n ∈ epoch, n = commits.length
  epochs : commits.map (·.1.epoch) = (List.range commits.length).map Int.ofNat
  records : ∀ accepted ∈ commits, RecordOf conversationID accepted.1 accepted.2

namespace CommitChain

variable {commits : List (MLSCommitBundleInput × MLSMessage)} {epoch : Option ℕ}

theorem empty (conversationID : ConversationID) : CommitChain conversationID [] none where
  unrecorded _ := rfl
  count _ mem := nomatch mem
  epochs := rfl
  records _ mem := nomatch mem

/-- One more accepted commit, at the recorded epoch or on a new group. -/
theorem accept (chain : CommitChain conversationID commits epoch) {n : ℕ}
    (placed : epoch = some n ∨ (epoch = none ∧ n = 0)) (current : request.epoch = n)
    (recorded : RecordOf conversationID request commit) :
    CommitChain conversationID (commits ++ [(request, commit)]) (some (n + 1)) := by
  have length : n = commits.length := by
    rcases placed with same | ⟨missing, zero⟩
    · exact chain.count n same
    · rw [chain.unrecorded missing, zero, List.length_nil]
  refine ⟨nofun, ?_, ?_, ?_⟩
  · intro m mem
    cases mem
    rw [List.length_append, List.length_singleton, length]
  · rw [List.map_append, List.length_append, List.length_singleton, List.range_succ, List.map_append,
      chain.epochs, List.map_singleton, List.map_singleton, current, length]
    rfl
  · intro accepted mem
    rcases List.mem_append.mp mem with old | fresh
    · exact chain.records accepted old
    · rw [List.mem_singleton.mp fresh]
      exact recorded

/-- A group recorded without a commit starts the chain. -/
theorem record (chain : CommitChain conversationID commits epoch) (missing : epoch = none) :
    CommitChain conversationID commits (some 0) := by
  refine ⟨nofun, ?_, chain.epochs, chain.records⟩
  intro n mem
  cases mem
  rw [chain.unrecorded missing, List.length_nil]

end CommitChain

/-- The record an accepted commit leaves is the one of its request. -/
theorem Store.BundleOutcome.accepted_record {limits : Limits} {welcomes : List MLSMessage}
    {epoch : ℕ} {eventID : EventID}
    (outcome : BundleOutcome limits s now newID request.trim ⟨some commit, welcomes, epoch, false, eventID⟩ s') :
    ∃ base n, s.Placed now request.trim base n ∧
      base.writeCommit now newID request.trim n = .ok (⟨some commit, welcomes, epoch, false, eventID⟩, s') ∧
      RecordOf request.trim.conversationID request commit := by
  cases outcome with
  | @accepted base n _ _ hasCommit fresh placed addable removable allowed written =>
    obtain ⟨stored, _, _, writes, same, -, -, -⟩ := writeCommit_ok written
    cases same
    exact ⟨base, n, placed, written, writes.conversation, writes.sender, writes.kind, writes.payload,
      hasCommit, writes.idempotencyKey⟩

/-- Whatever a bundle does, the epochs of other conversations stay. -/
theorem Store.BundleOutcome.other_epoch {limits : Limits}
    (outcome : BundleOutcome limits s now newID input result s')
    (different : other ≠ input.conversationID) :
    s'.mlsGroupEpoch other = s.mlsGroupEpoch other := by
  cases outcome with
  | replayed => rfl
  | known => rfl
  | recorded _ _ created => rw [createMLSGroup_epoch created, if_neg different]
  | accepted _ _ placed _ _ _ written =>
    obtain ⟨group, -, -, others⟩ := placed.epoch
    rw [(writeCommit_epoch group written).2 other different, others other different]

/-- A bundle that accepts no commit leaves the epoch, or records a group at zero. -/
theorem Store.BundleOutcome.epoch_of_not_accepted {limits : Limits}
    (outcome : BundleOutcome limits s now newID input result s')
    (refused : result.commit = none ∨ result.duplicate = true) :
    s'.mlsGroupEpoch input.conversationID = s.mlsGroupEpoch input.conversationID ∨
      (s.mlsGroupEpoch input.conversationID = none ∧ s'.mlsGroupEpoch input.conversationID = some 0) := by
  cases outcome with
  | replayed => exact .inl rfl
  | known => exact .inl rfl
  | recorded _ noGroup created => exact .inr ⟨noGroup, by rw [createMLSGroup_epoch created, if_pos rfl]⟩
  | accepted _ _ _ _ _ _ written =>
    obtain ⟨commit, _, _, -, some, -, accepted, -⟩ := writeCommit_ok written
    rw [some, accepted] at refused
    simp at refused

theorem acceptedCommits_concat (conversationID : ConversationID)
    (history : List (Served Store Call StoreError Answer)) (entry : Served Store Call StoreError Answer) :
    acceptedCommits conversationID (history ++ [entry]) =
      acceptedCommits conversationID history ++ (acceptedCommit conversationID entry).toList := by
  rw [acceptedCommits, List.filterMap_append]
  cases accepted : acceptedCommit conversationID entry <;> simp [acceptedCommits, accepted]

/-- The chain grows with the epoch at a committed bundle. -/
theorem CommitChain.bundle {commits : List (MLSCommitBundleInput × MLSMessage)} {limits : Limits}
    (chain : CommitChain conversationID commits (s.mlsGroupEpoch conversationID))
    (outcome : Store.BundleOutcome limits s now newID request.trim result s') :
    CommitChain conversationID (commits ++ (acceptedCommit conversationID
        ⟨s, .createMLSCommitBundle now newID request, .ok (.bundle result), s'⟩).toList)
      (s'.mlsGroupEpoch conversationID) := by
  by_cases here : request.trim.conversationID = conversationID
  · subst here
    by_cases refused : result.commit = none ∨ result.duplicate = true
    · have skipped : acceptedCommit request.trim.conversationID
          ⟨s, .createMLSCommitBundle now newID request, .ok (.bundle result), s'⟩ = none := by
        obtain ⟨commit, welcomes, epoch, duplicate, eventID⟩ := result
        rcases refused with missing | repeated
        · cases missing
          rfl
        · cases repeated
          cases commit <;> rfl
      rw [skipped, Option.toList_none, List.append_nil]
      rcases outcome.epoch_of_not_accepted refused with same | ⟨missing, zero⟩
      · rw [same]
        exact chain
      · rw [zero]
        exact chain.record missing
    · obtain ⟨commit, welcomes, epoch, duplicate, eventID⟩ := result
      obtain ⟨commit, rfl⟩ := Option.ne_none_iff_exists'.mp fun missing => refused (.inl missing)
      obtain rfl : duplicate = false := by simpa using fun repeated => refused (.inr repeated)
      obtain ⟨base, n, placed, written, recorded⟩ := outcome.accepted_record
      obtain ⟨group, current, before, -⟩ := placed.epoch
      have accepted : acceptedCommit request.trim.conversationID
          ⟨s, .createMLSCommitBundle now newID request,
            .ok (.bundle ⟨some commit, welcomes, epoch, false, eventID⟩), s'⟩ = some (request, commit) :=
        if_pos rfl
      rw [accepted, (Store.writeCommit_epoch group written).1]
      exact chain.accept before current recorded
  · have skipped : acceptedCommit conversationID
        ⟨s, .createMLSCommitBundle now newID request, .ok (.bundle result), s'⟩ = none := by
      unfold acceptedCommit
      split
      · next same _ =>
        cases same
        exact if_neg here
      · rfl
    rw [skipped, Option.toList_none, List.append_nil, outcome.other_epoch (Ne.symm here)]
    exact chain

/-- In every run, the accepted commits of a conversation and its recorded epoch form one chain. -/
theorem commitChain_of_run {limits : Limits} {history : List (Served Store Call StoreError Answer)}
    (run : ServerRun limits history s) (conversationID : ConversationID) :
    CommitChain conversationID (acceptedCommits conversationID history)
      (s.mlsGroupEpoch conversationID) := by
  refine run.preserves_history (fun history s => CommitChain conversationID
    (acceptedCommits conversationID history) (s.mlsGroupEpoch conversationID)) ?_ ?_ ?_
  · exact .empty conversationID
  · intro history s call given s' _ _ chain ok
    rw [acceptedCommits_concat]
    rcases (effect_of_step ok).bundle_or_sameGroups with ⟨_, _, _, _, rfl, rfl, -, -, outcome⟩ | ⟨other, same⟩
    · exact chain.bundle outcome
    · have skipped : acceptedCommit conversationID ⟨s, call, .ok given, s'⟩ = none := by
        unfold acceptedCommit
        split
        · next here _ => exact absurd here (other _ _ _)
        · rfl
      have epoch : s'.mlsGroupEpoch conversationID = s.mlsGroupEpoch conversationID := by
        simp only [Store.mlsGroupEpoch, same.groups]
      rw [skipped, Option.toList_none, List.append_nil, epoch]
      exact chain
  · intro history s call refusal _ _ chain _
    have skipped : acceptedCommit conversationID ⟨s, call, .error refusal, s⟩ = none := by
      unfold acceptedCommit
      split
      · next answered => cases answered
      · rfl
    rw [acceptedCommits_concat, skipped, Option.toList_none, List.append_nil]
    exact chain

/-- A bundle that repeats a retained commit is answered from the record when its sender is a member
with an unrevoked device, and refused otherwise. -/
theorem Store.createMLSCommitBundle_retry (limits : Limits) {retry : MLSCommitBundleInput}
    (now : Time) (newID : ℕ → MLSMessageID) (recorded : RecordOf conversationID request commit)
    (retained : commit ∈ s.mls.messages) (valid : retry.trim.valid)
    (conversation : retry.trim.conversationID = conversationID)
    (device : retry.senderDeviceID = request.senderDeviceID)
    (key : retry.trim.idempotencyKey = request.trim.idempotencyKey)
    (bytes : retry.commit = request.commit) :
    createMLSCommitBundle limits s now newID retry =
      if s.isMemberDevice conversationID retry.senderAccountID retry.senderDeviceID then
        .ok (⟨some commit, [], (s.mlsGroupEpoch conversationID).getD 0, true, 0⟩, s)
      else .error .notMember := by
  subst conversation
  have hasCommit : retry.trim.hasCommit := by
    intro empty
    exact recorded.nonempty (bytes.symm.trans empty)
  have found : s.mlsMessageByKey retry.trim.senderDeviceID retry.trim.idempotencyKey = some commit := by
    refine IndexedTable.findIndex?_eq_some.mpr ⟨retained, ?_⟩
    rw [MLSMessage.sendKey, recorded.sender, recorded.idempotencyKey, key, ← device]
    rfl
  have same : commit.conversationID = retry.trim.conversationID ∧ commit.kind = .commit ∧
      commit.payload = retry.trim.commit :=
    ⟨recorded.conversation, recorded.kind, recorded.payload.trans bytes.symm⟩
  unfold createMLSCommitBundle
  rw [require_bind_of valid]
  by_cases mem : s.isMemberDevice retry.trim.conversationID retry.trim.senderAccountID
      retry.trim.senderDeviceID
  · refine Eq.trans ?_ (if_pos mem).symm
    rw [require_bind_of mem, if_pos hasCommit, found]
    simp only [replayCommit]
    rw [require_bind_of same]
    rfl
  · refine Eq.trans ?_ (if_neg mem).symm
    simp only [require, if_neg mem]
    rfl

/-- The accepted commits of every conversation are totally ordered without gap or fork: the recorded
epoch is their number, they carried the epochs from zero on in order and each epoch once, and a retry
of one that is retained changes no table. The retry is answered with the commit as a duplicate
exactly when its sender is an unrevoked device of a current member. -/
theorem accepted_commits_form_chain {limits : Limits}
    {history : List (Served Store Call StoreError Answer)} {s : Store}
    (run : ServerRun limits history s) (conversationID : ConversationID) :
    (∀ epoch, s.mlsGroupEpoch conversationID = some epoch → epoch = (acceptedCommits conversationID history).length) ∧
    (s.mlsGroupEpoch conversationID = none → acceptedCommits conversationID history = []) ∧
    (acceptedCommits conversationID history).map (·.1.epoch) =
      (List.range (acceptedCommits conversationID history).length).map Int.ofNat ∧
    ((acceptedCommits conversationID history).map (·.1.epoch)).Nodup ∧
    ∀ request commit, (request, commit) ∈ acceptedCommits conversationID history →
      commit ∈ s.mls.messages → ∀ now newID retry, retry.trim.valid →
      retry.trim.conversationID = conversationID → retry.senderDeviceID = request.senderDeviceID →
      retry.trim.idempotencyKey = request.trim.idempotencyKey → retry.commit = request.commit →
      serve (step limits) s (.createMLSCommitBundle now newID retry) =
        { before := s
          call := .createMLSCommitBundle now newID retry
          answer := if s.isMemberDevice conversationID retry.senderAccountID retry.senderDeviceID then
              .ok (.bundle ⟨some commit, [], (acceptedCommits conversationID history).length, true, 0⟩)
            else .error .notMember
          after := s } := by
  have chain := commitChain_of_run run conversationID
  refine ⟨fun epoch => chain.count epoch, chain.unrecorded, chain.epochs, ?_, ?_⟩
  · rw [chain.epochs]
    exact List.nodup_range.map fun _ _ same => Int.ofNat.inj same
  · intro request commit accepted retained now newID retry valid conversation device key bytes
    have retried := Store.createMLSCommitBundle_retry limits now newID
      (chain.records (request, commit) accepted) retained valid conversation device key bytes
    have epoch : (s.mlsGroupEpoch conversationID).getD 0 = (acceptedCommits conversationID history).length := by
      cases group : s.mlsGroupEpoch conversationID with
      | none => rw [chain.unrecorded group] at accepted; cases accepted
      | some epoch => exact chain.count epoch group
    rw [epoch] at retried
    split
    · next member =>
      rw [if_pos member] at retried
      exact serve_of_ok (by simp only [step, retried]; rfl)
    · next outside =>
      rw [if_neg outside] at retried
      exact serve_of_error (by simp only [step, retried]; rfl)

namespace Example

def limits : Limits := ⟨10, 100, 100⟩

def alice : AccountID := "acct_aaaaaaaaaaaaaaaaaaaaaaaaaaaaaaaa"
def bob : AccountID := "acct_bbbbbbbbbbbbbbbbbbbbbbbbbbbbbbbb"

/-- A group conversation of Alice and Bob, with one device each. -/
def room : List Call :=
  [.registerAccount 0 alice .owner "alice-phone",
    .registerAccount 0 bob .member "bob-phone",
    .createOrGetConversation 1 "room" ⟨.group, none, none, none, alice, none, [bob]⟩]

/-- Alice's bundle that creates the group and adds Bob's device. -/
def aliceAddsBob : MLSCommitBundleInput :=
  ⟨"room", alice, "alice-phone", 0, "add-bob", [1], [2], [⟨bob, "bob-phone"⟩], [], ""⟩

/-- Bob's self-update on the group that Alice made. -/
def bobUpdates : MLSCommitBundleInput :=
  ⟨"room", bob, "bob-phone", 1, "update", [3], [], [], [], ""⟩

/-- The ids of the messages that a call stores. -/
def ids (label : String) (n : ℕ) : MLSMessageID := label ++ toString n

def group : List Call :=
  room ++ [.createMLSCommitBundle 2 (ids "first") aliceAddsBob]

def updated : List Call :=
  group ++ [.createMLSCommitBundle 3 (ids "second") bobUpdates]

/-- Bob leaves after his commit was accepted. -/
def bobLeft : List Call :=
  updated ++ [.removeConversationMember 4 "room" bob bob]

end Example

open Example in
theorem accepted_commits_form_chain_updated :
    (acceptedCommits "room" (execHistory (step limits) Store.init updated)).length = 2 ∧
    (acceptedCommits "room" (execHistory (step limits) Store.init updated)).map (·.1.epoch) =
      (List.range (acceptedCommits "room" (execHistory (step limits) Store.init updated)).length).map
        Int.ofNat :=
  ⟨by decide +kernel, (accepted_commits_form_chain (run_exec (step limits) Store.init updated) "room").2.2.1⟩

open Example in
/-- A member who left cannot have the retry of an accepted and retained commit answered. -/
theorem retry_after_leaving_refused :
    ∃ history s request commit, ServerRun limits history s ∧
      (request, commit) ∈ acceptedCommits "room" history ∧ commit ∈ s.mls.messages ∧
      (serve (step limits) s (.createMLSCommitBundle 5 (ids "third") request)).answer = .error .notMember := by
  refine ⟨_, _, bobUpdates, ⟨"second0", "room", bob, "bob-phone", none, none, .commit, [3], "update", 4, 3⟩,
    run_exec (step limits) Store.init bobLeft, ?_, IndexedTable.mem_def.mpr ?_, ?_⟩
  all_goals decide +kernel

end Veritra.Storage
