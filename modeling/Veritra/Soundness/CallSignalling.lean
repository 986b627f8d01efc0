import Veritra.Proofs.Storage.CallMoves
import Veritra.Soundness.SendRetry

/-! # Call signalling

The version of a session grows by one with each change and a request for another version is refused, so
of two requests that race for one version only the first counts. No request leaves a terminal state. A
session remembers only the action that changed it last. A retry of that action is answered with the
session as it is, and another request under its id is refused. Once the other participant has moved the
session, an older action is forgotten: its retry is refused as stale, and its id can be used again for
another change.
-/

namespace Veritra.Storage

open Relational Machine CallStore

variable {now : Time} {newID : CallID} {sent : Option CallMetadata} {withSyncEvent : Bool}

def CallEntry.changes (entry : CallEntry) (callID : CallID) : Prop :=
  entry.after.sessions.find? callID ≠ entry.before.sessions.find? callID
  deriving Decidable

/-- The action that the request makes the session under, or asks for on it. -/
def CallRequest.asks? (callID : CallID) : CallRequest → Option CallActionHash
  | .createCallSession _ newID _ accountID metadata _ =>
    if newID = callID then some (createAction accountID (metadata.getD .blank)) else none
  | request => request.action? callID

def CallRequest.now? : CallRequest → Option Time
  | .createCallSession now .. | .transitionCallSession now .. => some now
  | _ => none

/-- The request made the session under the create action. -/
structure Makes (entry : CallEntry) (conversationID : ConversationID) (accountID : AccountID)
    (metadata : CallMetadata) (call : CallSession) : Prop where
  asked : ∃ now sent withSyncEvent, entry.call =
    .createCallSession now call.id conversationID accountID sent withSyncEvent ∧ sent.getD .blank = metadata
  missing : entry.before.sessions.find? call.id = none
  stored : entry.after.sessions.find? call.id = some call

/-- An action id is used again only to retry: for a transition while its change is the session's latest
one, for a create while the session is there, and the id of a create action is not used for a
transition. -/
structure PromptRetries (history : List CallEntry) : Prop where
  moves : ∀ earlier first middle second later callID action retry,
    history = earlier ++ first :: (middle ++ second :: later) →
    first.call.asks? callID = some action → first.changes callID →
    second.call.action? callID = some retry → retry.actionID = action.actionID → action.actionID ≠ "" →
    first.call.action? callID = some action ∧ ∀ entry ∈ middle, ¬ entry.changes callID
  makes : ∀ earlier first middle second later conversationID accountID metadata call now newID sent
    withSyncEvent, history = earlier ++ first :: (middle ++ second :: later) →
    Makes first conversationID accountID metadata call →
    second.call = .createCallSession now newID conversationID accountID sent withSyncEvent →
    callActionID sent = metadata.actionID → metadata.actionID ≠ "" →
    ∀ entry ∈ middle, (entry.after.sessions.find? call.id).isSome

/-- What a history of requests does to the sessions. -/
structure Signalled (history : List CallEntry) : Prop where
  starts : ∀ entry ∈ history, ∀ callID call, entry.before.sessions.find? callID = none →
    entry.after.sessions.find? callID = some call → call.version = 1 ∧ call.state = .ringing
  /-- Only the deletion of the account that made an ended call changes it without a new version. -/
  versions : ∀ entry ∈ history, ∀ callID call next, entry.before.sessions.find? callID = some call →
    entry.after.sessions.find? callID = some next →
    next = call ∨ next.version = call.version + 1 ∨
      (∃ now, entry.call = .base (.deleteAccountData now call.createdBy)) ∧ call.state.isTerminal ∧
        next = { call with metadata := .blank }
  terminal : ∀ entry ∈ history, ∀ callID call next, entry.before.sessions.find? callID = some call →
    entry.after.sessions.find? callID = some next → call.state.isTerminal →
    next.state = call.state ∧ next.version = call.version
  stale : ∀ entry ∈ history, ∀ callID call action, entry.before.sessions.find? callID = some call →
    entry.call.action? callID = some action → action.expectedVersion ≠ call.version →
    (∃ refusal, entry.answer = .error refusal) ∨
      call.lastActionHash = some action ∧ entry.answer = .ok (.session call 0) ∧ ¬ entry.changes callID
  movesOnce : ∀ earlier first middle second later callID action retry,
    history = earlier ++ first :: (middle ++ second :: later) →
    first.call.asks? callID = some action → first.changes callID →
    second.call.action? callID = some retry → retry.actionID = action.actionID → action.actionID ≠ "" →
    ¬ second.changes callID ∧
      (retry ≠ action → ∃ refusal, second.answer = .error refusal) ∧
      (retry = action → ∀ call, first.after.sessions.find? callID = some call →
        call.connected second.before.store → (∀ now ∈ second.call.now?, call.unexpired now) →
        second.answer = .ok (.session call 0))
  makesOnce : ∀ earlier first middle second later conversationID accountID metadata call now newID sent
    withSyncEvent, history = earlier ++ first :: (middle ++ second :: later) →
    Makes first conversationID accountID metadata call →
    second.call = .createCallSession now newID conversationID accountID sent withSyncEvent →
    callActionID sent = metadata.actionID → metadata.actionID ≠ "" →
    second.after = second.before ∧
      (sent.getD .blank ≠ metadata → ∃ refusal, second.answer = .error refusal) ∧
      (sent.getD .blank = metadata → ∀ current, second.before.sessions.find? call.id = some current →
        current.connected second.before.store → second.answer = .ok (.session current 0))
section Step

variable {given : CallAnswer} {limits : Limits} {c c' : CallStore} {callID : CallID} {request : CallRequest}
  {call next : CallSession} {action : CallActionHash}

theorem moved_writes (call : CallSession) (now : Time) (state : CallState) (metadata : Option CallMetadata)
    (action : CallActionHash) :
    (call.moved now state metadata action).version = call.version + 1 ∧
      (call.moved now state metadata action).lastActionID = action.actionID ∧
      (call.moved now state metadata action).lastActionHash = some action := by
  unfold CallSession.moved
  dsimp only
  split_ifs <;> exact ⟨rfl, rfl, rfl⟩

section

variable (move : SessionMove c c' callID request) (found : c.sessions.find? callID = some call)
  (stored : c'.sessions.find? callID = some next)

include move found stored

theorem SessionMove.version : next = call ∨ next.version = call.version + 1 ∨
      (∃ now, request = .base (.deleteAccountData now call.createdBy)) ∧ call.state.isTerminal ∧
        next = { call with metadata := .blank } := by
  cases move with
  | kept same => exact .inl (Option.some.inj ((stored.symm.trans same).trans found))
  | made missing => cases missing.symm.trans found
  | @moved _ old now state action known _ _ _ _ _ after =>
    cases known.symm.trans found
    cases after.symm.trans stored
    exact .inr (.inl (moved_writes ..).1)
  | closed known after =>
    cases known.symm.trans found
    cases after.symm.trans stored
    by_cases ended : call.state.isTerminal
    · exact .inr (.inr ⟨⟨_, rfl⟩, ended, by simp [CallStore.closed, ended]⟩)
    · exact .inr (.inl (by simp [CallStore.closed, ended]))
  | swept gone => cases gone.symm.trans stored

theorem SessionMove.terminal
    (ended : call.state.isTerminal) : next.state = call.state ∧ next.version = call.version := by
  cases move with
  | kept same =>
    cases (stored.symm.trans same).trans found
    exact ⟨rfl, rfl⟩
  | made missing => cases missing.symm.trans found
  | moved known _ _ _ _ running =>
    cases known.symm.trans found
    exact absurd (ended.symm.trans running) Bool.noConfusion
  | closed known after =>
    cases known.symm.trans found
    cases after.symm.trans stored
    simp [CallStore.closed, ended]
  | swept gone => cases gone.symm.trans stored

end

theorem SessionMove.start (move : SessionMove c c' callID request)
    (missing : c.sessions.find? callID = none) (stored : c'.sessions.find? callID = some next) :
    next.version = 1 ∧ next.state = .ringing := by
  rcases move.origin stored with ⟨_, known, -⟩ | ⟨-, _, _, _, _, _, -, rings⟩
  · cases missing.symm.trans known
  · exact ⟨rings.version, rings.state⟩

section

variable (asked : request.action? callID = some action)

include asked

theorem action?_eq_some :
    ∃ now withSyncEvent, request = .transitionCallSession now callID action.accountID action.expectedVersion
      action.state action.metadata withSyncEvent ∧
      action = transitionAction action.accountID action.expectedVersion action.state action.metadata := by
  cases request with
  | transitionCallSession now id accountID expectedVersion nextState metadata withSyncEvent =>
    simp only [CallRequest.action?] at asked
    split at asked
    · next same =>
      cases same
      cases asked
      exact ⟨now, withSyncEvent, rfl, rfl⟩
    · cases asked
  | base | createCallSession | pruneCallSessions => cases asked

/-- What a request for an action may do to the session it names. -/
theorem transition_of_step (ok : callStep limits c request = .ok (given, c')) :
    ∃ call now answered eventID, request.now? = some now ∧ c.sessions.find? callID = some call ∧
      call.unexpired now ∧ c.checkParticipant call action.accountID = .ok () ∧ 0 < action.expectedVersion ∧
      given = .session answered eventID ∧ TransitionOutcome c call now action answered eventID c' := by
  obtain ⟨now, withSyncEvent, rfl, same⟩ := action?_eq_some asked
  obtain ⟨⟨⟨answered, eventID⟩, _⟩, ok, answer⟩ := map_eq_ok.mp ok
  cases answer
  obtain ⟨call, found, unexpired, participant, outcome⟩ := transitionCallSession_ok ok
  rw [← same] at outcome
  have positive := (require_ok.mp ok).1
  exact ⟨call, now, answered, eventID, rfl, found, unexpired, participant, positive, rfl, outcome⟩

/-- A retry of the recorded action is answered with the session. -/
theorem retry_answered
    (found : c.sessions.find? callID = some call) (recorded : call.lastActionHash = some action)
    (named : call.lastActionID = action.actionID) (nonempty : action.actionID ≠ "")
    (positive : 0 < action.expectedVersion)
    (participant : c.checkParticipant call action.accountID = .ok ())
    (unexpired : ∀ now ∈ request.now?, call.unexpired now) :
    callStep limits c request = .ok (.session call 0, c) := by
  obtain ⟨now, withSyncEvent, rfl, same⟩ := action?_eq_some asked
  have id : callActionID action.metadata = action.actionID := (congrArg (·.actionID) same).symm
  have live := unexpired now rfl
  have served : c.transitionCallSession now callID action.accountID action.expectedVersion action.state
      action.metadata (if withSyncEvent then some .callState else none) = .ok ((call, 0), c) := by
    unfold transitionCallSession
    rw [require_ok]
    refine ⟨positive, ?_⟩
    rw [found]
    rw [require_ok]
    refine ⟨live, ?_⟩
    rw [bind_eq_ok]
    refine ⟨(), participant, ?_⟩
    rw [if_pos ⟨id ▸ nonempty, id.trans named.symm⟩, require_ok]
    exact ⟨recorded.trans (congrArg some same), rfl⟩
  simp only [callStep, served, Except.map]

end

/-- A create request under the action of a session that is there makes nothing. -/
theorem create_repeats (sound : c.Sound) (stored : call ∈ c.sessions)
    (named : call.createActionID = (sent.getD .blank).actionID)
    (nonempty : call.createActionID ≠ "") (ok : callStep limits c
      (.createCallSession now newID call.conversationID call.createdBy sent withSyncEvent) = .ok (given, c')) :
    c' = c ∧ given = .session call 0 ∧ call.createActionHash = createAction call.createdBy (sent.getD .blank) := by
  obtain ⟨⟨⟨answered, eventID⟩, _⟩, ok, answer⟩ := map_eq_ok.mp ok
  cases answer
  cases createCallSession_ok ok with
  | repeated _ known place creator action same =>
    cases sound.once call stored answered known nonempty place.symm creator.symm (named.trans action.symm)
    exact ⟨rfl, rfl, same⟩
  | made new => exact absurd named (new (named ▸ nonempty) call stored rfl rfl)

/-- While both participants are there, a retry of the create action is answered with the session. -/
theorem create_answered (sound : c.Sound) (found : c.sessions.find? callID = some call)
    (connected : call.connected c.store) (named : call.createActionID = (sent.getD .blank).actionID)
    (nonempty : call.createActionID ≠ "")
    (recorded : call.createActionHash = createAction call.createdBy (sent.getD .blank)) :
    callStep limits c (.createCallSession now newID call.conversationID call.createdBy sent withSyncEvent) =
      .ok (.session call 0, c) := by
  have paired := sound.paired callID call found
  obtain ⟨stored, -⟩ := Table.find?_eq_some.mp found
  obtain ⟨conversation, known, direct⟩ := paired.found
  -- The other participant is the only other active member.
  have others : ∀ a ∈ (c.store.activeMembers call.conversationID).filter (· ≠ call.createdBy),
      a = call.invitedAccountID := by
    intro a mem
    obtain ⟨active, other⟩ := List.mem_filter.mp mem
    exact (paired.mem_active active).resolve_left (of_decide_eq_true other)
  have invited : (((c.store.activeMembers call.conversationID).filter (· ≠ call.createdBy)).max?).getD "" ≠ "" := by
    cases highest : ((c.store.activeMembers call.conversationID).filter (· ≠ call.createdBy)).max? with
    | none =>
      have mem : call.invitedAccountID ∈ (c.store.activeMembers call.conversationID).filter (· ≠ call.createdBy) :=
        List.mem_filter.mpr ⟨connected.2, decide_eq_true paired.apart.symm⟩
      rw [List.max?_eq_none_iff.mp highest] at mem
      cases mem
    | some a =>
      rw [Option.getD_some, others a (List.max?_mem highest)]
      exact paired.invited
  have looked : ∃ existing, c.createdUnder? call.conversationID call.createdBy call.createActionID = some existing := by
    refine Option.isSome_iff_exists.mp (List.find?_isSome.mpr ⟨call, stored, ?_⟩)
    exact decide_eq_true ⟨rfl, rfl, rfl⟩
  obtain ⟨existing, looked⟩ := looked
  have fits := List.find?_some looked
  simp only [decide_eq_true_eq] at fits
  cases sound.once call stored existing (List.mem_of_find?_eq_some looked) nonempty fits.1.symm fits.2.1.symm
    fits.2.2.symm
  have served (eventType : Option EventType) : c.createCallSession now newID call.conversationID
      call.createdBy sent eventType = .ok ((call, 0), c) := by
    unfold createCallSession
    rw [known]
    dsimp only
    rw [require_ok]
    refine ⟨connected.1, ?_⟩
    rw [require_ok]
    refine ⟨⟨direct, paired.two_active_iff.mpr connected, invited⟩, ?_⟩
    have id : callActionID (some (sent.getD .blank)) = call.createActionID := named.symm
    rw [id, if_neg nonempty, looked]
    rw [require_ok]
    exact ⟨recorded.trans (by rw [createAction, named]), rfl⟩
  simp only [callStep, served, Except.map]

end Step

section Runs

variable {entry first second : CallEntry} {callID : CallID} {call : CallSession} {action : CallActionHash}
  {earlier middle later : List CallEntry} {limits : Limits} {history : List CallEntry} {c : CallStore}

section

variable (run : Run (callStep limits) unguarded CallStore.init history c) (mem : entry ∈ history)
include run mem

/-- A refused request moves no session. -/
theorem sessionMove_of_entry (callID : CallID) :
    SessionMove entry.before entry.after callID entry.call := by
  rcases run.committed_or_refused mem with ⟨_, -, ok⟩ | ⟨_, -, same⟩
  · exact sessionMove_of_step ok callID
  · exact .kept (by rw [same])

/-- A request that is accepted only as a repetition changes nothing, and is refused otherwise. -/
theorem repeated_of_accepted {same : Prop}
    (accepted : ∀ {given}, callStep limits entry.before entry.call = .ok (given, entry.after) →
      entry.after = entry.before ∧ same) :
    entry.after = entry.before ∧ (¬ same → ∃ refusal, entry.answer = .error refusal) := by
  rcases run.committed_or_refused mem with ⟨_, -, ok⟩ | ⟨refusal, refused, kept⟩
  · exact ⟨(accepted ok).1, fun different => absurd (accepted ok).2 different⟩
  · exact ⟨kept, fun _ => ⟨refusal, refused⟩⟩

theorem callSound_before : entry.before.Sound := by
  obtain ⟨earlier, reached, -⟩ := run.reaches_before mem
  exact callSound_of_run reached

theorem stale_refused (found : entry.before.sessions.find? callID = some call)
    (asked : entry.call.action? callID = some action)
    (stale : action.expectedVersion ≠ call.version) :
    (∃ refusal, entry.answer = .error refusal) ∨
      call.lastActionHash = some action ∧ entry.answer = .ok (.session call 0) ∧ ¬ entry.changes callID := by
  rcases run.committed_or_refused mem with ⟨given, answered, ok⟩ | ⟨refusal, refused, -⟩
  · obtain ⟨_, now, _, _, -, known, -, -, -, rfl, outcome⟩ := transition_of_step asked ok
    cases found.symm.trans known
    generalize reached : entry.after = after at outcome
    cases outcome with
    | repeated _ same => exact .inr ⟨same, answered, not_not.mpr (by rw [reached])⟩
    | unchanged _ version | moved _ version => exact absurd version stale
  · exact .inl ⟨refusal, refused⟩

/-- What the request that changed the session under an action recorded. -/
theorem recorded_of_change (asked : entry.call.action? callID = some action)
    (changes : entry.changes callID) :
    ∃ call, entry.after.sessions.find? callID = some call ∧ call.lastActionID = action.actionID ∧
      call.lastActionHash = some action ∧ 0 < action.expectedVersion ∧
      (action.accountID = call.createdBy ∨ action.accountID = call.invitedAccountID) := by
  rcases run.committed_or_refused mem with ⟨given, -, ok⟩ | ⟨_, -, same⟩
  · obtain ⟨old, now, answered, eventID, -, found, -, participant, positive, -, outcome⟩ :=
      transition_of_step asked ok
    have paired := (callSound_before run mem).paired callID old found
    have actor := ((checkParticipant_iff paired).mp participant).1
    generalize reached : entry.after = after at outcome
    have still : entry.after = entry.before → False := fun same => changes (by rw [same])
    cases outcome with
    | repeated | unchanged => exact (still reached).elim
    | @moved next _ _ _ _ _ _ sessions =>
      obtain ⟨-, named⟩ := Table.find?_eq_some.mp found
      obtain ⟨-, id, hash⟩ := moved_writes old now next action.metadata action
      have origin := moved_sameOrigin old now next action.metadata action
      refine ⟨_, (sessions callID).trans (if_pos named.symm), id, hash, positive, ?_⟩
      rw [origin.createdBy, origin.invitedAccountID]
      exact actor
  · exact absurd (by rw [same]) changes

end

theorem moves_once (run : Run (callStep limits) unguarded CallStore.init
      (earlier ++ first :: (middle ++ second :: later)) c) {retry : CallActionHash}
    (asked : first.call.action? callID = some action) (changes : first.changes callID)
    (quiet : ∀ entry ∈ middle, ¬ entry.changes callID)
    (again : second.call.action? callID = some retry) (same : retry.actionID = action.actionID)
    (nonempty : action.actionID ≠ "") :
    ¬ second.changes callID ∧ (retry ≠ action → ∃ refusal, second.answer = .error refusal) ∧
      (retry = action → ∀ call, first.after.sessions.find? callID = some call →
        call.connected second.before.store → (∀ now ∈ second.call.now?, call.unexpired now) →
        second.answer = .ok (.session call 0)) := by
  have firstMember : first ∈ earlier ++ first :: (middle ++ second :: later) := by simp
  have secondMember : second ∈ earlier ++ first :: (middle ++ second :: later) := by simp
  obtain ⟨call, left, named, recorded, positive, actor⟩ := recorded_of_change run firstMember asked changes
  have keep : ∀ entry ∈ middle, entry.after.sessions.find? callID = entry.before.sessions.find? callID :=
    fun entry mem => not_not.mp (quiet entry mem)
  have found : second.before.sessions.find? callID = some call :=
    (run.reading_between (fun c => c.sessions.find? callID) keep).trans left
  have sound := callSound_before run secondMember
  -- An accepted request under the recorded id is the recorded action, and repeats it.
  have accepted : ∀ {given}, callStep limits second.before second.call = .ok (given, second.after) →
      second.after = second.before ∧ retry = action := by
    intro given ok
    obtain ⟨_, now, _, _, -, known, -, -, -, -, outcome⟩ := transition_of_step again ok
    cases found.symm.trans known
    have repeats : repeats call retry := ⟨same ▸ nonempty, same.trans named.symm⟩
    generalize second.after = after at outcome
    cases outcome with
    | repeated _ hash => exact ⟨rfl, Option.some.inj (hash.symm.trans recorded)⟩
    | unchanged new | moved new => exact absurd repeats new
  obtain ⟨kept, refused⟩ := repeated_of_accepted run secondMember accepted
  refine ⟨not_not.mpr (by rw [kept]), refused, fun identical recordedCall left' connected unexpired => ?_⟩
  · cases identical
    cases left.symm.trans left'
    have participant : second.before.checkParticipant call action.accountID = .ok () :=
      (checkParticipant_iff (sound.paired callID call found)).mpr ⟨actor, connected⟩
    have served : callStep limits second.before second.call = .ok (.session call 0, second.before) :=
      retry_answered again found recorded named nonempty positive participant unexpired
    obtain ⟨_, -, -, entry⟩ := run.reaches_before secondMember
    rw [entry, serve_of_ok served]

/-- A session that is never swept keeps its origin. -/
theorem origin_of_presence {state : CallStore} (run : Run (callStep limits) unguarded c history state)
    (found : c.sessions.find? callID = some call)
    (present : ∀ entry ∈ history, (entry.after.sessions.find? callID).isSome) :
    ∃ current, state.sessions.find? callID = some current ∧ call.SameOrigin current := by
  refine run.preserves_where (fun state =>
    ∃ current, state.sessions.find? callID = some current ∧ call.SameOrigin current) present
    ⟨call, found, .refl call⟩ ?_
  rintro _ state request answer next - - ⟨old, known, origin⟩ ok present
  obtain ⟨current, stored⟩ := Option.isSome_iff_exists.mp present
  rcases (sessionMove_of_step ok callID).origin stored with ⟨_, known', later⟩ | ⟨missing, -⟩
  · cases known.symm.trans known'
    exact ⟨current, stored, origin.trans later⟩
  · cases missing.symm.trans known

theorem makes_once (run : Run (callStep limits) unguarded CallStore.init
      (earlier ++ first :: (middle ++ second :: later)) c) {conversationID : ConversationID}
    {accountID : AccountID} {metadata : CallMetadata}
    (makes : Makes first conversationID accountID metadata call)
    (present : ∀ entry ∈ middle, (entry.after.sessions.find? call.id).isSome)
    (again : second.call = .createCallSession now newID conversationID accountID sent withSyncEvent)
    (same : callActionID sent = metadata.actionID) (nonempty : metadata.actionID ≠ "") :
    second.after = second.before ∧
      (sent.getD .blank ≠ metadata → ∃ refusal, second.answer = .error refusal) ∧
      (sent.getD .blank = metadata → ∀ current, second.before.sessions.find? call.id = some current →
        current.connected second.before.store → second.answer = .ok (.session current 0)) := by
  have firstMember : first ∈ earlier ++ first :: (middle ++ second :: later) := by simp
  have secondMember : second ∈ earlier ++ first :: (middle ++ second :: later) := by simp
  obtain ⟨_, rings⟩ : ∃ before : CallStore, Rings before call.id conversationID accountID metadata call := by
    obtain ⟨_, _, _, asked, rfl⟩ := makes.asked
    rcases (sessionMove_of_entry run firstMember call.id).origin makes.stored with
      ⟨_, known, -⟩ | ⟨-, _, _, _, _, _, request, rings⟩
    · cases makes.missing.symm.trans known
    · cases asked.symm.trans request
      exact ⟨_, rings⟩
  obtain ⟨current, found, origin⟩ := origin_of_presence run.after_entry.at_entry.1 makes.stored present
  have sound := callSound_before run secondMember
  -- The session still says which request made it.
  have place : current.conversationID = conversationID := origin.conversationID.trans rings.place
  have creator : current.createdBy = accountID := origin.createdBy.trans rings.creator
  have action : current.createActionID = metadata.actionID := origin.createActionID.trans rings.action
  have hash : current.createActionHash = createAction accountID metadata :=
    origin.createActionHash.trans rings.hash
  have id : (sent.getD .blank).actionID = metadata.actionID := by
    rw [← same]
    cases sent <;> rfl
  obtain ⟨stored, -⟩ := Table.find?_eq_some.mp found
  rw [← place, ← creator] at again
  have unchanged : ∀ {given}, callStep limits second.before second.call = .ok (given, second.after) →
      second.after = second.before ∧ sent.getD .blank = metadata := by
    intro given ok
    rw [again] at ok
    obtain ⟨kept, -, recorded⟩ := create_repeats sound stored (action.trans id.symm) (action ▸ nonempty)
      ok
    rw [hash, creator] at recorded
    exact ⟨kept, (Option.some.inj (congrArg CallActionHash.metadata recorded)).symm⟩
  obtain ⟨kept, refused⟩ := repeated_of_accepted run secondMember unchanged
  refine ⟨kept, refused, fun identical current' found' connected => ?_⟩
  · cases found.symm.trans found'
    have served : callStep limits second.before second.call = .ok (.session current 0, second.before) := by
      rw [again]
      exact create_answered sound found connected (action.trans id.symm) (action ▸ nonempty)
        (by rw [hash, creator, identical])
    obtain ⟨_, -, -, entry⟩ := run.reaches_before secondMember
    rw [entry, serve_of_ok served]

/-- Over every run whose retries are prompt, each accepted change adds one to the version, terminal states
stay, a stale version is refused, and each action counts once. -/
theorem calls_signalled (run : Run (callStep limits) unguarded CallStore.init history c)
    (prompt : PromptRetries history) : Signalled history where
  starts entry member callID call missing stored :=
    (sessionMove_of_entry run member callID).start missing stored
  versions entry member callID call next found stored :=
    (sessionMove_of_entry run member callID).version found stored
  terminal entry member callID call next found stored ended :=
    (sessionMove_of_entry run member callID).terminal found stored ended
  stale entry member callID call action found asked stale := stale_refused run member found asked stale
  movesOnce earlier first middle second later callID action retry whole asks changes again same nonempty := by
    obtain ⟨asked, quiet⟩ := prompt.moves earlier first middle second later callID action retry whole asks
      changes again same nonempty
    rw [whole] at run
    exact moves_once run asked changes quiet again same nonempty
  makesOnce earlier first middle second later conversationID accountID metadata call now newID sent
      withSyncEvent whole makes again same nonempty := by
    have present := prompt.makes earlier first middle second later conversationID accountID metadata call now
      newID sent withSyncEvent whole makes again same nonempty
    rw [whole] at run
    exact makes_once run makes present again same nonempty

end Runs

namespace Example

def signal (text actionID : String) : Option CallMetadata := some ⟨text, actionID⟩

/-- Alice rings Bob in their direct conversation. -/
def ringing : List CallRequest :=
  [.base (.registerAccount 0 alice .owner "alice-phone"),
    .base (.registerAccount 0 bob .member "bob-phone"),
    .base (.createOrGetConversation 1 "pair" ⟨.dm, none, none, none, alice, none, [bob]⟩),
    .createCallSession 2 "call" "pair" alice (signal "ring" "ring") true]

def bobAccepts (now : Time) : CallRequest :=
  .transitionCallSession now "call" bob 1 (some .active) (signal "accept" "accept") true

/-- Alice's first candidates for the connection. -/
def aliceOffers (now : Time) : CallRequest :=
  .transitionCallSession now "call" alice 2 (some .active) (signal "offer" "offer") true

/-- Bob's candidates. -/
def bobReplies : CallRequest :=
  .transitionCallSession 5 "call" bob 3 (some .active) (signal "reply" "reply") true

/-- Other candidates of Alice's, under the id of the first ones. -/
def aliceReuses : CallRequest :=
  .transitionCallSession 7 "call" alice 4 (some .active) (signal "other" "offer") true

def creates : CallRequest → Bool
  | .createCallSession .. => true
  | _ => false

/-- The retry of Bob's acceptance comes at once. -/
theorem accept_prompt {history : List CallEntry}
    (calls : history.map (·.call) = ringing ++ [bobAccepts 3, bobAccepts 4]) : PromptRetries history := by
  constructor
  · rintro earlier first middle second later callID action retry rfl asks - again same nonempty
    simp only [List.map_append, List.map_cons, ringing] at calls
    generalize first.call = firstCall at *
    generalize second.call = secondCall at *
    rcases earlier with _ | ⟨e₁, _ | ⟨e₂, _ | ⟨e₃, _ | ⟨e₄, _ | ⟨e₅, earlier⟩⟩⟩⟩⟩
    all_goals simp only [List.map_nil, List.map_cons, List.nil_append, List.cons_append, List.cons.injEq] at calls
    · cases calls.1 ▸ asks
    · cases calls.2.1 ▸ asks
    · cases calls.2.2.1 ▸ asks
    · -- The two requests after the create action have another id.
      obtain ⟨-, -, -, rfl, rest⟩ := calls
      have listed : secondCall ∈ [bobAccepts 3, bobAccepts 4] := by simp [← rest]
      have accepts : retry.actionID = "accept" := by
        rcases List.mem_pair.mp listed with rfl | rfl <;>
          · obtain ⟨_, _, request, named⟩ := action?_eq_some again
            rw [named, ← (CallRequest.transitionCallSession.inj request).2.2.2.2.2.1]
            rfl
      simp only [CallRequest.asks?, Option.ite_none_right_eq_some, Option.some.injEq] at asks
      rw [accepts, ← asks.2] at same
      exact absurd same (by decide)
    · obtain ⟨-, -, -, -, rfl, rest⟩ := calls
      have none : middle = [] := by
        have lengths := congrArg List.length rest
        simp only [List.length_append, List.length_map, List.length_cons, List.length_nil] at lengths
        exact List.eq_nil_of_length_eq_zero (by omega)
      exact ⟨asks, none ▸ fun _ mem => absurd mem List.not_mem_nil⟩
    · have lengths := congrArg List.length calls.2.2.2.2.2
      simp only [List.length_append, List.length_map, List.length_cons, List.length_nil] at lengths
      omega
  · -- Only one request makes a session.
    rintro earlier first middle second later conversationID accountID metadata call now newID sent
      withSyncEvent rfl makes again - -
    obtain ⟨_, _, _, asked, -⟩ := makes.asked
    simp only [List.map_append, List.map_cons, asked, again] at calls
    have count := congrArg (List.countP creates) calls
    have one : List.countP creates (ringing ++ [bobAccepts 3, bobAccepts 4]) = 1 := rfl
    simp only [one, List.countP_append, List.countP_cons, creates, if_true] at count
    omega

end Example

open Example in
/-- Bob's retry is answered with the active session. -/
theorem calls_signalled_accept :
    Signalled (execHistory (callStep limits) CallStore.init (ringing ++ [bobAccepts 3, bobAccepts 4])) ∧
    (serve (callStep limits) (exec (callStep limits) CallStore.init (ringing ++ [bobAccepts 3]))
      (bobAccepts 4)).answer.isOk :=
  ⟨calls_signalled (run_exec _ _ _) (accept_prompt rfl), by decide +kernel⟩

open Example in
/-- After Bob's reply the retry of Alice's accepted offer is refused as stale, and her next change under
the same id is accepted. -/
theorem action_reused :
    CallEntry.changes (serve (callStep limits) (exec (callStep limits) CallStore.init
      (ringing ++ [bobAccepts 3])) (aliceOffers 4)) "call" ∧
    (serve (callStep limits) (exec (callStep limits) CallStore.init
      (ringing ++ [bobAccepts 3, aliceOffers 4, bobReplies])) (aliceOffers 6)).answer = .error .callVersion ∧
    (serve (callStep limits) (exec (callStep limits) CallStore.init
      (ringing ++ [bobAccepts 3, aliceOffers 4, bobReplies, aliceOffers 6])) aliceReuses).answer.isOk ∧
    CallEntry.changes (serve (callStep limits) (exec (callStep limits) CallStore.init
      (ringing ++ [bobAccepts 3, aliceOffers 4, bobReplies, aliceOffers 6])) aliceReuses) "call" := by
  decide +kernel

/-- A call is between the two members of a direct conversation, and an action makes one call. -/
theorem calls_well_formed (limits : Limits) (requests : List CallRequest) :
    (exec (callStep limits) CallStore.init requests).Sound :=
  callSound_of_run (run_exec _ _ _)

end Veritra.Storage
