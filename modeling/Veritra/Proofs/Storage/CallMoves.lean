import Veritra.Model.Storage.Calls
import Veritra.Proofs.Storage.DirectMembers
import Veritra.Proofs.Storage.Requests

/-! # What one request does to the call sessions

A session is made with the two members of a direct conversation, and since nobody enters such a
conversation they stay the only ones who can be its active members. A request then changes one session
at most: it makes it, moves it under an action, or ends it with the account that made it. The sweep only
takes sessions away.
-/

namespace Veritra.Storage

open Relational Machine Directory

variable {call next : CallSession} {newID callID : CallID} {conversationID : ConversationID}
  {limits : Limits} {c c' : CallStore} {request : CallRequest} {given : CallAnswer}

namespace Store

variable {s : Store} {accountID : AccountID}

theorem mem_activeMembers : accountID ∈ s.activeMembers conversationID ↔
    accountID ∈ s.directory.members (.conversation conversationID) ∧ s.activeAccount accountID := by
  unfold activeMembers
  rw [mem_members, Option.isSome_iff_exists]
  simp only [List.mem_map, List.mem_filter, decide_eq_true_eq, roleOf_eq_some]
  constructor
  · rintro ⟨m, ⟨stored, scope, active⟩, rfl⟩
    exact ⟨⟨m.role, m, stored, rfl, scope, rfl⟩, active⟩
  · rintro ⟨⟨_, m, stored, rfl, scope, -⟩, active⟩
    exact ⟨m, ⟨stored, scope, active⟩, rfl⟩

theorem activeMembers_nodup (s : Store) (conversationID : ConversationID) :
    (s.activeMembers conversationID).Nodup :=
  accounts_nodup fun _ hit => hit.1

end Store

namespace CallSession

variable {s : Store}

/-- The session belongs to the two accounts of a direct conversation. -/
structure Paired (call : CallSession) (d : Directory) : Prop where
  apart : call.createdBy ≠ call.invitedAccountID
  invited : call.invitedAccountID ≠ ""
  direct : ∃ c ∈ d.conversations, c.id = call.conversationID ∧ c.kind = .dm
  members : ∀ a ∈ d.members (.conversation call.conversationID), a = call.createdBy ∨ a = call.invitedAccountID

theorem Paired.kept {d d' : Directory} (paired : call.Paired d) (kept : DirectKept d d') :
    call.Paired d' := by
  obtain ⟨c, stored, named, direct⟩ := paired.direct
  refine ⟨paired.apart, paired.invited, ⟨c, kept.stored c stored, named, direct⟩, fun a mem => ?_⟩
  refine paired.members a ?_
  rw [← named] at mem ⊢
  exact kept.within c stored direct mem

/-- Both participants are active members of the conversation. -/
def connected (call : CallSession) (s : Store) : Prop :=
  call.createdBy ∈ s.activeMembers call.conversationID ∧ call.invitedAccountID ∈ s.activeMembers call.conversationID
  deriving Decidable

section

variable (paired : call.Paired s.directory)

include paired

theorem Paired.mem_active {a : AccountID} (active : a ∈ s.activeMembers call.conversationID) :
    a = call.createdBy ∨ a = call.invitedAccountID :=
  paired.members a (Store.mem_activeMembers.mp active).1

/-- The count of active members tells whether both participants are there. -/
theorem Paired.two_active_iff : (s.activeMembers call.conversationID).length = 2 ↔ call.connected s := by
  have within : (s.activeMembers call.conversationID).toFinset ⊆ {call.createdBy, call.invitedAccountID} := by
    intro a mem
    rw [Finset.mem_insert, Finset.mem_singleton]
    exact paired.mem_active (List.mem_toFinset.mp mem)
  rw [← List.toFinset_card_of_nodup (s.activeMembers_nodup _), ← Finset.card_pair paired.apart]
  constructor
  · intro two
    have both := Finset.eq_of_subset_of_card_le within two.ge
    unfold connected
    rw [← List.mem_toFinset, ← List.mem_toFinset, both]
    simp
  · rintro ⟨creator, invited⟩
    refine congrArg Finset.card (within.antisymm fun a mem => List.mem_toFinset.mpr ?_)
    rcases Finset.mem_insert.mp mem with rfl | last
    · exact creator
    · rw [Finset.mem_singleton.mp last]
      exact invited

theorem Paired.found : ∃ conversation, s.conversations.find? call.conversationID = some conversation ∧
      conversation.kind = .dm := by
  obtain ⟨outline, stored, named, direct⟩ := paired.direct
  obtain ⟨conversation, mem, rfl⟩ := List.mem_map.mp stored
  exact ⟨conversation, Table.find?_eq_some.mpr ⟨mem, named⟩, direct⟩

end

end CallSession

namespace CallStore

variable {metadata : Option CallMetadata} {eventType : Option EventType} {eventID : EventID} {now : Time}
  {accountID : AccountID}

/-- A participant may act while both are there, and nobody else may act at all. -/
theorem checkParticipant_iff (paired : call.Paired c.store.directory) :
    c.checkParticipant call accountID = .ok () ↔
      (accountID = call.createdBy ∨ accountID = call.invitedAccountID) ∧ call.connected c.store := by
  obtain ⟨conversation, found, direct⟩ := paired.found
  unfold checkParticipant
  rw [found]
  rw [require_ok, require_ok]
  constructor
  · rintro ⟨⟨-, two, -⟩, active, -⟩
    exact ⟨paired.mem_active active, paired.two_active_iff.mp two⟩
  · rintro ⟨participant, connected⟩
    refine ⟨⟨direct, paired.two_active_iff.mpr connected, paired.invited⟩, ?_, ?_⟩
    · rcases participant with rfl | rfl
      · exact connected.1
      · exact connected.2
    · rw [if_neg fun other => participant.elim other.1 other.2]
      rfl

theorem insertCallEvent_keeps (c : CallStore) (eventType : Option EventType) (call : CallSession) (now : Time) :
    (c.insertCallEvent eventType call now).2.sessions = c.sessions ∧
      (c.insertCallEvent eventType call now).2.store.directory = c.store.directory := by
  cases eventType <;> exact ⟨rfl, rfl⟩

def createAction (accountID : AccountID) (metadata : CallMetadata) : CallActionHash :=
  ⟨metadata.actionID, accountID, some .ringing, 0, some metadata⟩

/-- A session as a create request makes it. -/
structure Rings (c : CallStore) (newID : CallID) (conversationID : ConversationID) (accountID : AccountID)
    (metadata : CallMetadata) (call : CallSession) : Prop where
  name : call.id = newID
  place : call.conversationID = conversationID
  creator : call.createdBy = accountID
  state : call.state = .ringing
  version : call.version = 1
  action : call.createActionID = metadata.actionID
  hash : call.createActionHash = createAction accountID metadata
  direct : ∃ conversation, c.store.conversations.find? conversationID = some conversation ∧ conversation.kind = .dm
  active : accountID ∈ c.store.activeMembers conversationID
  invited : call.invitedAccountID ∈ c.store.activeMembers conversationID ∧
    call.invitedAccountID ≠ accountID ∧ call.invitedAccountID ≠ ""

/-- What a create request may do. -/
inductive CreateOutcome (c : CallStore) (newID : CallID) (conversationID : ConversationID)
    (accountID : AccountID) (metadata : CallMetadata) : CallSession → EventID → CallStore → Prop
  | repeated {existing : CallSession} (named : metadata.actionID ≠ "") (stored : existing ∈ c.sessions)
      (conversation : existing.conversationID = conversationID) (creator : existing.createdBy = accountID)
      (action : existing.createActionID = metadata.actionID)
      (same : existing.createActionHash = createAction accountID metadata) :
      CreateOutcome c newID conversationID accountID metadata existing 0 c
  | made {call : CallSession} {eventID : EventID} {c' : CallStore}
      (new : metadata.actionID ≠ "" → ∀ old ∈ c.sessions, old.conversationID = conversationID →
        old.createdBy = accountID → old.createActionID ≠ metadata.actionID)
      (rings : Rings c newID conversationID accountID metadata call)
      (inserted : c.sessions.insert? call = some c'.sessions)
      (directory : c'.store.directory = c.store.directory) :
      CreateOutcome c newID conversationID accountID metadata call eventID c'

theorem mem_of_highest {accountIDs : List AccountID} (found : accountIDs.max?.getD "" ≠ "") :
    accountIDs.max?.getD "" ∈ accountIDs := by
  cases highest : accountIDs.max? with
  | none => exact absurd (congrArg (·.getD "") highest) found
  | some accountID => exact List.max?_mem highest

theorem createCallSession_ok
    (ok : c.createCallSession now newID conversationID accountID metadata eventType = .ok ((call, eventID), c')) :
    CreateOutcome c newID conversationID accountID (metadata.getD .blank) call eventID c' := by
  unfold createCallSession at ok
  split at ok
  · next conversation found =>
    obtain ⟨active, ok⟩ := require_ok.mp ok
    obtain ⟨⟨direct, -, invited⟩, ok⟩ := require_ok.mp ok
    dsimp only at ok
    split at ok
    · next existing looked =>
      obtain ⟨same, ok⟩ := require_ok.mp ok
      cases ok
      split at looked
      · cases looked
      · next named =>
        have fits := List.find?_some looked
        simp only [decide_eq_true_eq] at fits
        exact .repeated named (List.mem_of_find?_eq_some looked) fits.1 fits.2.1 fits.2.2 same
    · next looked =>
      split at ok
      · cases ok
      · next sessions inserted =>
        cases ok
        obtain ⟨same, directory⟩ := insertCallEvent_keeps { c with sessions } eventType _ now
        refine .made (fun named old stored place creator action => ?_) ⟨rfl, rfl, rfl, rfl, rfl, rfl, rfl,
          ⟨conversation, found, direct⟩, active, ?_⟩ (same ▸ inserted) directory
        · have missing := (if_neg named).symm.trans looked
          exact List.find?_eq_none.mp missing old stored (decide_eq_true ⟨place, creator, action⟩)
        · obtain ⟨listed, other⟩ := List.mem_filter.mp (mem_of_highest invited)
          exact ⟨listed, of_decide_eq_true other, invited⟩
  · cases ok

def transitionAction (accountID : AccountID) (expectedVersion : ℕ) (nextState : Option CallState)
    (metadata : Option CallMetadata) : CallActionHash :=
  ⟨callActionID metadata, accountID, nextState, expectedVersion, metadata⟩

/-- The action is the one that changed the session last. -/
def repeats (call : CallSession) (action : CallActionHash) : Prop :=
  action.actionID ≠ "" ∧ action.actionID = call.lastActionID

/-- What a transition request may do to the session it names. -/
inductive TransitionOutcome (c : CallStore) (call : CallSession) (now : Time) (action : CallActionHash) :
    CallSession → EventID → CallStore → Prop
  | repeated (repeats : repeats call action) (same : call.lastActionHash = some action) :
      TransitionOutcome c call now action call 0 c
  | unchanged (new : ¬ repeats call action) (version : action.expectedVersion = call.version)
      (state : action.state = some call.state) (silent : action.metadata = none) :
      TransitionOutcome c call now action call 0 c
  | moved {next : CallState} {eventID : EventID} {c' : CallStore} (new : ¬ repeats call action)
      (version : action.expectedVersion = call.version) (state : action.state = some next)
      (running : call.state.isTerminal = false)
      (sessions : ∀ id, c'.sessions.find? id = if id = call.id then
        some (call.moved now next action.metadata action) else c.sessions.find? id)
      (directory : c'.store.directory = c.store.directory) :
      TransitionOutcome c call now action (call.moved now next action.metadata action) eventID c'

theorem running_of_allows {next : CallState} (allowed : call.allows accountID next)
    (changes : ¬ (some next = some call.state ∧ call.state.isTerminal)) : call.state.isTerminal = false := by
  rcases allowed with same | ⟨-, state, -⟩ | ⟨-, state, -⟩ | ⟨-, state, -⟩ | ⟨-, state, -⟩
  · exact Bool.eq_false_iff.mpr fun ended => changes ⟨congrArg some same, ended⟩
  all_goals rw [state]; rfl

/-- The columns of the update are all that a move changes. -/
theorem moved_columns (call : CallSession) (now : Time) (next : CallState) (metadata : Option CallMetadata)
    (action : CallActionHash) :
    { call with
      state := (call.moved now next metadata action).state
      metadata := (call.moved now next metadata action).metadata
      endedAt := (call.moved now next metadata action).endedAt
      expiresAt := (call.moved now next metadata action).expiresAt
      version := (call.moved now next metadata action).version
      lastActionID := (call.moved now next metadata action).lastActionID
      lastActionHash := (call.moved now next metadata action).lastActionHash } =
    call.moved now next metadata action := by
  unfold CallSession.moved
  dsimp only
  split_ifs <;> rfl

theorem transitionCallSession_ok {expectedVersion : ℕ} {nextState : Option CallState}
    {answered : CallSession}
    (ok : c.transitionCallSession now callID accountID expectedVersion nextState metadata eventType =
      .ok ((answered, eventID), c')) :
    ∃ call, c.sessions.find? callID = some call ∧ call.unexpired now ∧
      c.checkParticipant call accountID = .ok () ∧
      TransitionOutcome c call now (transitionAction accountID expectedVersion nextState metadata)
        answered eventID c' := by
  unfold transitionCallSession at ok
  have ok := of_require ok
  split at ok
  · next call found =>
    obtain ⟨unexpired, ok⟩ := require_ok.mp ok
    obtain ⟨_, participant, ok⟩ := bind_eq_ok.mp ok
    refine ⟨call, found, unexpired, participant, ?_⟩
    dsimp only at ok
    split at ok
    · next repeated =>
      obtain ⟨same, ok⟩ := require_ok.mp ok
      cases ok
      exact .repeated repeated same
    · next new =>
      obtain ⟨version, ok⟩ := require_ok.mp ok
      split at ok
      · next same =>
        cases ok
        exact .unchanged new version same.1 same.2
      · obtain ⟨changes, ok⟩ := require_ok.mp ok
        cases nextState with
        | none => cases ok
        | some next =>
          obtain ⟨allowed, ok⟩ := require_ok.mp ok
          cases ok
          obtain ⟨sessions, directory⟩ := insertCallEvent_keeps _ eventType
            (call.moved now next metadata ⟨callActionID metadata, accountID, some next, expectedVersion, metadata⟩) now
          refine .moved new version rfl (running_of_allows allowed changes) (fun id => ?_) directory
          obtain ⟨stored, rfl⟩ := Table.find?_eq_some.mp found
          rw [sessions, Table.find?_update]
          by_cases here : id = call.id
          · rw [here, if_pos rfl, found, Option.map_some, if_pos ⟨rfl, version.symm⟩]
            exact congrArg some (moved_columns ..)
          · rw [if_neg here]
            cases other : c.sessions.find? id with
            | none => rfl
            | some row =>
              obtain ⟨-, named⟩ := Table.find?_eq_some.mp other
              rw [Option.map_some, if_neg fun both => here (named.symm.trans both.1)]
  · cases ok

/-- The session after the account that made it is deleted. -/
def closed (call : CallSession) (now : Time) : CallSession :=
  let call := if call.state.isTerminal then call else { call with
    state := .ended
    endedAt := some now
    expiresAt := some (now + 7 * 24 * 60 * 60 * second)
    version := call.version + 1 }
  { call with metadata := .blank }

theorem find?_endCallsOf (c : CallStore) (now : Time) (accountID : AccountID) (callID : CallID) :
    (c.endCallsOf now accountID).sessions.find? callID =
      (c.sessions.find? callID).map fun call => if call.createdBy = accountID then closed call now else call := by
  unfold endCallsOf
  rw [Table.find?_update, Table.find?_update, Option.map_map]
  congr 1
  funext call
  simp only [Function.comp, closed]
  by_cases own : call.createdBy = accountID <;> by_cases ended : call.state.isTerminal <;> simp [own, ended]

end CallStore

open CallStore

/-- The action that the request asks for on the session. -/
def CallRequest.action? (callID : CallID) : CallRequest → Option CallActionHash
  | .transitionCallSession _ id accountID expectedVersion nextState metadata _ =>
    if id = callID then some (transitionAction accountID expectedVersion nextState metadata) else none
  | _ => none

/-- What a committed request does to the session of an id. -/
inductive SessionMove (c c' : CallStore) (callID : CallID) : CallRequest → Prop
  | kept {request : CallRequest} (same : c'.sessions.find? callID = c.sessions.find? callID) :
      SessionMove c c' callID request
  | made {now : Time} {conversationID : ConversationID} {accountID : AccountID} {metadata : Option CallMetadata} {call : CallSession}
      (missing : c.sessions.find? callID = none)
      (rings : Rings c callID conversationID accountID (metadata.getD .blank) call)
      (stored : c'.sessions.find? callID = some call) :
      SessionMove c c' callID
        (.createCallSession now callID conversationID accountID metadata withSyncEvent)
  | moved {request : CallRequest} {call : CallSession} {now : Time} {next : CallState}
      (found : c.sessions.find? callID = some call)
      (asked : request.action? callID = some action) (new : ¬ repeats call action)
      (version : action.expectedVersion = call.version) (state : action.state = some next)
      (running : call.state.isTerminal = false)
      (stored : c'.sessions.find? callID = some (call.moved now next action.metadata action)) :
      SessionMove c c' callID request
  | closed {now : Time} {call : CallSession} (found : c.sessions.find? callID = some call)
      (stored : c'.sessions.find? callID = some (CallStore.closed call now)) :
      SessionMove c c' callID (.base (.deleteAccountData now call.createdBy))
  | swept {now : Time} (gone : c'.sessions.find? callID = none) :
      SessionMove c c' callID (.pruneCallSessions now)

theorem sessionMove_of_step (ok : callStep limits c request = .ok (given, c')) (callID : CallID) :
    SessionMove c c' callID request := by
  cases request with
  | base call =>
    obtain ⟨⟨_, store⟩, -, ok⟩ := bind_eq_ok.mp ok
    cases ok
    by_cases deletes : ∃ now accountID, call = .deleteAccountData now accountID
    · obtain ⟨now, accountID, rfl⟩ := deletes
      have after := c.find?_endCallsOf now accountID callID
      cases found : c.sessions.find? callID with
      | none => exact .kept (after.trans (by rw [found]; rfl))
      | some call =>
        rw [found, Option.map_some] at after
        by_cases own : call.createdBy = accountID
        · cases own
          rw [if_pos rfl] at after
          exact .closed found after
        · rw [if_neg own] at after
          exact .kept (after.trans found.symm)
    · refine .kept ?_
      cases call
      case deleteAccountData => exact absurd ⟨_, _, rfl⟩ deletes
      all_goals rfl
  | createCallSession now newID conversationID accountID metadata withSyncEvent =>
    obtain ⟨⟨⟨call, eventID⟩, _⟩, ok, same⟩ := map_eq_ok.mp ok
    cases same
    cases createCallSession_ok ok with
    | repeated => exact .kept rfl
    | made new rings inserted directory =>
      have after := @Table.find?_of_insert? _ _ _ _ _ _ _ callID inserted
      have free := Table.missing_of_insert? inserted
      by_cases here : newID = callID
      · cases here
        rw [rings.name] at free
        rw [if_pos rings.name] at after
        exact .made free rings after
      · rw [rings.name, if_neg here] at after
        exact .kept after
  | transitionCallSession now id accountID expectedVersion nextState metadata withSyncEvent =>
    obtain ⟨⟨⟨answered, eventID⟩, _⟩, ok, same⟩ := map_eq_ok.mp ok
    cases same
    obtain ⟨call, found, -, -, outcome⟩ := transitionCallSession_ok ok
    obtain ⟨-, named⟩ := Table.find?_eq_some.mp found
    cases outcome with
    | repeated | unchanged => exact .kept rfl
    | moved new version state running sessions directory =>
      by_cases here : callID = id
      · cases here
        exact .moved found (if_pos rfl) new version state running
          ((sessions callID).trans (if_pos named.symm))
      · refine .kept ?_
        rw [sessions, named, if_neg here]
  | pruneCallSessions now =>
    cases ok
    have dropped : Table.Drops _ c.sessions (c.pruneCallSessions now).sessions := c.sessions.drops_delete _
    rcases dropped callID with same | ⟨_, -, -, gone⟩
    · exact .kept same
    · exact .swept gone

/-- The columns that are written once, when the session is made. -/
structure CallSession.SameOrigin (call next : CallSession) : Prop where
  conversationID : next.conversationID = call.conversationID
  createdBy : next.createdBy = call.createdBy
  invitedAccountID : next.invitedAccountID = call.invitedAccountID
  createActionID : next.createActionID = call.createActionID
  createActionHash : next.createActionHash = call.createActionHash

theorem CallSession.SameOrigin.refl (call : CallSession) : call.SameOrigin call := ⟨rfl, rfl, rfl, rfl, rfl⟩

theorem CallSession.SameOrigin.trans {middle : CallSession} (first : call.SameOrigin middle)
    (second : middle.SameOrigin next) : call.SameOrigin next where
  conversationID := second.conversationID.trans first.conversationID
  createdBy := second.createdBy.trans first.createdBy
  invitedAccountID := second.invitedAccountID.trans first.invitedAccountID
  createActionID := second.createActionID.trans first.createActionID
  createActionHash := second.createActionHash.trans first.createActionHash

theorem moved_sameOrigin (call : CallSession) (now : Time) (next : CallState)
    (metadata : Option CallMetadata) (action : CallActionHash) :
    call.SameOrigin (call.moved now next metadata action) := by
  unfold CallSession.moved
  dsimp only
  split_ifs <;> exact ⟨rfl, rfl, rfl, rfl, rfl⟩

theorem closed_sameOrigin (call : CallSession) (now : Time) : call.SameOrigin (closed call now) := by
  unfold closed
  split_ifs <;> exact ⟨rfl, rfl, rfl, rfl, rfl⟩

theorem CallSession.Paired.of_origin {d : Directory} (paired : call.Paired d)
    (origin : call.SameOrigin next) : next.Paired d where
  apart := by rw [origin.createdBy, origin.invitedAccountID]; exact paired.apart
  invited := by rw [origin.invitedAccountID]; exact paired.invited
  direct := by rw [origin.conversationID]; exact paired.direct
  members := by
    rw [origin.conversationID, origin.createdBy, origin.invitedAccountID]
    exact paired.members

/-- A direct conversation with two active members has no others. -/
theorem CallStore.Rings.paired {accountID : AccountID} {metadata : CallMetadata}
    (rings : Rings c newID conversationID accountID metadata call)
    (sound : DirectSound c.store.directory) : call.Paired c.store.directory := by
  obtain ⟨conversation, found, direct⟩ := rings.direct
  obtain ⟨stored, named⟩ := Table.find?_eq_some.mp found
  have listed : conversation.outline ∈ c.store.directory.conversations := List.mem_map_of_mem stored
  obtain ⟨invited, other, nonempty⟩ := rings.invited
  have both : ({accountID, call.invitedAccountID} : Finset AccountID) ⊆
      c.store.directory.members (.conversation conversationID) := by
    intro a mem
    rcases Finset.mem_insert.mp mem with rfl | last
    · exact (Store.mem_activeMembers.mp rings.active).1
    · rw [Finset.mem_singleton.mp last]
      exact (Store.mem_activeMembers.mp invited).1
  have bound := sound.pairs _ listed direct
  have only := Finset.eq_of_subset_of_card_le both (by
    rw [Finset.card_pair other.symm, ← named]
    exact bound)
  refine ⟨by rw [rings.creator]; exact other.symm, nonempty, ⟨_, listed, ?_, direct⟩, fun a mem => ?_⟩
  · exact named.trans rings.place.symm
  · rw [rings.place, ← only, Finset.mem_insert, Finset.mem_singleton] at mem
    rwa [rings.creator]

theorem direct_of_callStep (ok : callStep limits c request = .ok (given, c'))
    (sound : DirectSound c.store.directory) :
    DirectKept c.store.directory c'.store.directory ∧ DirectSound c'.store.directory := by
  have unmoved {d : Directory} (same : d = c.store.directory) :
      DirectKept c.store.directory d ∧ DirectSound d := by
    rw [same]
    exact ⟨⟨fun _ stored => stored, fun _ _ _ _ mem => mem⟩, sound⟩
  cases request with
  | base call =>
    obtain ⟨⟨_, store⟩, stepped, ok⟩ := bind_eq_ok.mp ok
    cases ok
    exact direct_of_step stepped sound
  | createCallSession =>
    obtain ⟨⟨⟨call, eventID⟩, _⟩, ok, same⟩ := map_eq_ok.mp ok
    cases same
    cases createCallSession_ok ok with
    | repeated => exact unmoved rfl
    | made _ _ _ directory => exact unmoved directory
  | transitionCallSession =>
    obtain ⟨⟨⟨answered, eventID⟩, _⟩, ok, same⟩ := map_eq_ok.mp ok
    cases same
    obtain ⟨call, -, -, -, outcome⟩ := transitionCallSession_ok ok
    cases outcome with
    | repeated | unchanged => exact unmoved rfl
    | moved _ _ _ _ _ directory => exact unmoved directory
  | pruneCallSessions now =>
    cases ok
    exact unmoved rfl

/-- Every session belongs to the two members of a direct conversation, and an account makes one session
under a create action. -/
structure CallStore.Sound (c : CallStore) : Prop where
  direct : DirectSound c.store.directory
  paired : ∀ callID call, c.sessions.find? callID = some call → call.Paired c.store.directory
  once : ∀ call ∈ c.sessions, ∀ other ∈ c.sessions, call.createActionID ≠ "" →
    call.conversationID = other.conversationID → call.createdBy = other.createdBy →
    call.createActionID = other.createActionID → call = other

/-- A session that is there after a request was there before with the same origin, or was made by it. -/
theorem SessionMove.origin (move : SessionMove c c' callID request)
    (stored : c'.sessions.find? callID = some call) :
    (∃ old, c.sessions.find? callID = some old ∧ old.SameOrigin call) ∨
      c.sessions.find? callID = none ∧ ∃ now conversationID accountID metadata withSyncEvent,
        request = .createCallSession now callID conversationID accountID metadata withSyncEvent ∧
          Rings c callID conversationID accountID (metadata.getD .blank) call := by
  cases move with
  | kept same => exact .inl ⟨call, same ▸ stored, .refl call⟩
  | made missing rings after =>
    cases after.symm.trans stored
    exact .inr ⟨missing, _, _, _, _, _, rfl, rings⟩
  | moved found _ _ _ _ _ after =>
    cases after.symm.trans stored
    exact .inl ⟨_, found, moved_sameOrigin ..⟩
  | closed found after =>
    cases after.symm.trans stored
    exact .inl ⟨_, found, closed_sameOrigin ..⟩
  | swept gone => cases gone.symm.trans stored

section

variable (sound : c.Sound) (ok : callStep limits c request = .ok (given, c'))

include sound ok

/-- A create action that a session was made under makes no other one. -/
theorem once_of_step : ∀ call ∈ c'.sessions, ∀ other ∈ c'.sessions, call.createActionID ≠ "" →
      call.conversationID = other.conversationID → call.createdBy = other.createdBy →
      call.createActionID = other.createActionID → call = other := by
  have found {call : CallSession} (stored : call ∈ c'.sessions) : c'.sessions.find? call.id = some call :=
    Table.find?_eq_some.mpr ⟨stored, rfl⟩
  -- A request makes a session only under an action that no old one has.
  have fresh {call other : CallSession} (known : call ∈ c.sessions) (stored : other ∈ c'.sessions)
      (missing : c.sessions.find? other.id = none) (named : other.createActionID ≠ "")
      (place : call.conversationID = other.conversationID) (creator : call.createdBy = other.createdBy) :
      call.createActionID ≠ other.createActionID := by
    rcases (sessionMove_of_step ok other.id).origin (found stored) with
      ⟨_, was, -⟩ | ⟨-, _, _, _, _, _, rfl, rings⟩
    · cases missing.symm.trans was
    · obtain ⟨⟨⟨_, eventID⟩, _⟩, ok, same⟩ := map_eq_ok.mp ok
      cases same
      rw [rings.action] at named ⊢
      cases createCallSession_ok ok with
      | repeated => cases missing.symm.trans (found stored)
      | made new => exact new named call known (place.trans rings.place) (creator.trans rings.creator)
  intro call stored other otherStored named place creator action
  rcases (sessionMove_of_step ok call.id).origin (found stored) with
    ⟨old, known, origin⟩ | ⟨missing, _, _, _, _, _, asked, -⟩
  · obtain ⟨oldStored, oldID⟩ := Table.find?_eq_some.mp known
    rw [origin.createActionID] at named action
    rw [origin.conversationID] at place
    rw [origin.createdBy] at creator
    rcases (sessionMove_of_step ok other.id).origin (found otherStored) with
      ⟨otherOld, otherKnown, otherOrigin⟩ | ⟨missing, -⟩
    · obtain ⟨otherOldStored, otherID⟩ := Table.find?_eq_some.mp otherKnown
      have same : old = otherOld := sound.once old oldStored otherOld otherOldStored named
        (place.trans otherOrigin.conversationID) (creator.trans otherOrigin.createdBy)
        (action.trans otherOrigin.createActionID)
      exact Table.eq_of_key stored otherStored (oldID.symm.trans (same ▸ otherID))
    · exact absurd action (fresh oldStored otherStored missing (action ▸ named) place creator)
  · rcases (sessionMove_of_step ok other.id).origin (found otherStored) with
      ⟨otherOld, otherKnown, otherOrigin⟩ | ⟨-, _, _, _, _, _, otherAsked, -⟩
    · obtain ⟨otherOldStored, -⟩ := Table.find?_eq_some.mp otherKnown
      refine absurd (otherOrigin.createActionID.symm.trans action.symm) (fresh otherOldStored stored missing named ?_ ?_)
      · exact otherOrigin.conversationID.symm.trans place.symm
      · exact otherOrigin.createdBy.symm.trans creator.symm
    · rw [asked] at otherAsked
      exact Table.eq_of_key stored otherStored (CallRequest.createCallSession.inj otherAsked).2.1

theorem CallStore.Sound.step : c'.Sound := by
  obtain ⟨kept, direct⟩ := direct_of_callStep ok sound.direct
  refine ⟨direct, fun callID call stored => ?_, once_of_step sound ok⟩
  rcases (sessionMove_of_step ok callID).origin stored with
    ⟨old, known, origin⟩ | ⟨-, _, _, _, _, _, -, rings⟩
  · exact ((sound.paired callID old known).of_origin origin).kept kept
  · exact (rings.paired sound.direct).kept kept

end

theorem callSound_of_run {history : List CallEntry}
    (run : Run (callStep limits) unguarded CallStore.init history c) : c.Sound := by
  refine run.preserves Sound ⟨⟨?_, ?_⟩, ?_, ?_⟩ fun _ _ _ _ _ sound ok => sound.step ok
  · exact fun _ _ mem => absurd mem (Finset.notMem_empty _)
  · exact fun _ stored => absurd stored List.not_mem_nil
  · intro callID call found
    cases found
  · exact fun _ stored => absurd stored (Table.not_mem_empty _)

end Veritra.Storage
