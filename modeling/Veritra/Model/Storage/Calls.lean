import Veritra.Model.Storage.Housekeeping

/-! # Call signalling

Calls between the two accounts of a direct conversation, from `content_store.go`. A call session has a
state and a version. A participant moves it with a request that names the version the participant has
seen, so of two requests for one version the second is refused. A request may carry an action id, and
the session remembers the action that changed it last: the same request again is answered with the
session as it is, and another request under the same id is refused. The sessions stand around the
store, whose calls are served as before.
-/

namespace Veritra.Storage

open Relational Machine

abbrev CallID := String

inductive CallState
  | ringing | active | rejected | missed | ended
  deriving DecidableEq, Repr

/-- `isTerminalCallState`. -/
def CallState.isTerminal : CallState → Bool
  | rejected | missed | ended => true
  | ringing | active => false

/-- Call metadata as stored, with its `action_id` member, the empty text when it has none. -/
structure CallMetadata where
  raw : String
  actionID : String
  deriving DecidableEq, Repr

/-- The metadata `{}`. -/
def CallMetadata.blank : CallMetadata := ⟨"\x7b\x7d", ""⟩

/-- `callActionHash`: the digest of an action, taken for what it digests. The zero bytes between the
fields keep them apart, since metadata with an action id is JSON and holds none. -/
structure CallActionHash where
  actionID : String
  accountID : AccountID
  /-- The requested state, or nothing for a text that is no state. -/
  state : Option CallState
  expectedVersion : ℕ
  metadata : Option CallMetadata
  deriving DecidableEq, Repr

/-- A row of `call_sessions`. -/
structure CallSession where
  id : CallID
  conversationID : ConversationID
  createdBy : AccountID
  invitedAccountID : AccountID
  state : CallState
  version : ℕ
  metadata : CallMetadata
  createdAt : Time
  endedAt : Option Time
  expiresAt : Option Time
  createActionID : String
  createActionHash : CallActionHash
  lastActionID : String
  lastActionHash : Option CallActionHash
  deriving DecidableEq, Repr

/-- `callActionID`; absent metadata has no action id. -/
def callActionID (metadata : Option CallMetadata) : String :=
  (metadata.map (·.actionID)).getD ""

/-- The session still answers: it has no expiry, or the expiry is ahead. -/
def CallSession.unexpired (call : CallSession) (now : Time) : Prop :=
  ∀ expiresAt ∈ call.expiresAt, now < expiresAt
  deriving Decidable

/-- The store with the call sessions. -/
structure CallStore where
  store : Store
  sessions : Table CallSession CallSession.id

def CallStore.init : CallStore := ⟨.init, .empty⟩

def Store.activeMembers (s : Store) (conversationID : ConversationID) : List AccountID :=
  (s.memberships.rows.filter fun m =>
    m.scope = .conversation conversationID ∧ s.activeAccount m.accountID).map (·.accountID)

namespace CallSession

/-- Who may move the session where. A participant may also keep the state and send new metadata. -/
def allows (call : CallSession) (accountID : AccountID) (next : CallState) : Prop :=
  next = call.state ∨
  (accountID = call.createdBy ∧ call.state = .ringing ∧ next = .ended) ∨
  (accountID = call.createdBy ∧ call.state = .active ∧ next = .ended) ∨
  (accountID = call.invitedAccountID ∧ call.state = .ringing ∧ (next = .active ∨ next = .rejected ∨ next = .missed)) ∨
  (accountID = call.invitedAccountID ∧ call.state = .active ∧ next = .ended)
  deriving Decidable

def moved (call : CallSession) (now : Time) (next : CallState) (metadata : Option CallMetadata)
    (action : CallActionHash) : CallSession :=
  let call := { call with
    state := next
    version := call.version + 1
    metadata := metadata.getD call.metadata
    lastActionID := action.actionID
    lastActionHash := some action }
  if next.isTerminal ∧ call.endedAt = none then
    { call with endedAt := some now, expiresAt := some (now + 7 * 24 * 60 * 60 * second) }
  else if next = .active then { call with expiresAt := some (now + 4 * 60 * 60 * second) }
  else call

end CallSession

namespace CallStore

/-- `insertOptionalSyncEvent` with the session as its payload. -/
def insertCallEvent (c : CallStore) (eventType : Option EventType) (call : CallSession) (now : Time) :
    EventID × CallStore :=
  match eventType with
  | none => (0, c)
  | some eventType =>
    let (eventID, store) := c.store.insertSyncEvent eventType none (some call.conversationID)
      (.call call.createdBy) now
    (eventID, { c with store })

/-- The session that the account made in the conversation under a create action. -/
def createdUnder? (c : CallStore) (conversationID : ConversationID) (accountID : AccountID)
    (actionID : String) : Option CallSession :=
  c.sessions.rows.find? fun call =>
    call.conversationID = conversationID ∧ call.createdBy = accountID ∧ call.createActionID = actionID

/-- `createCallSession`: ring the other account of a direct conversation. -/
def createCallSession (c : CallStore) (now : Time) (newID : CallID) (conversationID : ConversationID)
    (accountID : AccountID) (metadata : Option CallMetadata) (eventType : Option EventType) :
    Except StoreError ((CallSession × EventID) × CallStore) := do
  let some conversation := c.store.conversations.find? conversationID | .error .notMember
  let members := c.store.activeMembers conversationID
  require (accountID ∈ members) StoreError.notMember
  -- The greatest of the other members, the empty text when there is none.
  let invitedAccountID := ((members.filter (· ≠ accountID)).max?).getD ""
  require (conversation.kind = .dm ∧ members.length = 2 ∧ invitedAccountID ≠ "") StoreError.invalidInput
  let metadata := metadata.getD .blank
  let actionID := callActionID (some metadata)
  let actionHash : CallActionHash := ⟨actionID, accountID, some .ringing, 0, some metadata⟩
  match if actionID = "" then none else c.createdUnder? conversationID accountID actionID with
  | some existing =>
    require (existing.createActionHash = actionHash) StoreError.idempotencyConflict
    pure ((existing, 0), c)
  | none =>
    let call : CallSession :=
      ⟨newID, conversationID, accountID, invitedAccountID, .ringing, 1, metadata, now, none,
        some (now + 2 * 60 * second), actionID, actionHash, "", none⟩
    match c.sessions.insert? call with
    | none => .error .uniqueConstraint
    | some sessions =>
      let (eventID, c) := { c with sessions }.insertCallEvent eventType call now
      pure ((call, eventID), c)

def checkParticipant (c : CallStore) (call : CallSession) (accountID : AccountID) :
    Except StoreError Unit := do
  let some conversation := c.store.conversations.find? call.conversationID | .error .notFound
  let members := c.store.activeMembers call.conversationID
  require (conversation.kind = .dm ∧ members.length = 2 ∧ call.invitedAccountID ≠ "")
    StoreError.invalidInput
  require (accountID ∈ members) StoreError.notMember
  if accountID ≠ call.createdBy ∧ accountID ≠ call.invitedAccountID then
    require (¬ c.store.isConversationMember call.conversationID accountID) StoreError.forbidden
    .error .notMember
  else pure ()

/-- `transitionCallSession`: move the session on, or send metadata to the other participant. -/
def transitionCallSession (c : CallStore) (now : Time) (callID : CallID) (accountID : AccountID)
    (expectedVersion : ℕ) (nextState : Option CallState) (metadata : Option CallMetadata)
    (eventType : Option EventType) : Except StoreError ((CallSession × EventID) × CallStore) := do
  require (0 < expectedVersion) StoreError.invalidInput
  let some call := c.sessions.find? callID | .error .notFound
  -- A session that waits for the sweep answers as it will after it.
  require (call.unexpired now) StoreError.notFound
  c.checkParticipant call accountID
  let actionID := callActionID metadata
  let actionHash : CallActionHash := ⟨actionID, accountID, nextState, expectedVersion, metadata⟩
  if actionID ≠ "" ∧ actionID = call.lastActionID then
    require (call.lastActionHash = some actionHash) StoreError.idempotencyConflict
    pure ((call, 0), c)
  else
    require (expectedVersion = call.version) StoreError.callVersion
    if nextState = some call.state ∧ metadata = none then pure ((call, 0), c)
    else
      require (¬ (nextState = some call.state ∧ call.state.isTerminal)) StoreError.invalidInput
      let some next := nextState | .error .invalidInput
      require (call.allows accountID next) StoreError.invalidInput
      let moved := call.moved now next metadata actionHash
      let sessions := c.sessions.update (fun row => row.id = callID ∧ row.version = expectedVersion)
        fun row => { row with
          state := moved.state, metadata := moved.metadata, endedAt := moved.endedAt
          expiresAt := moved.expiresAt, version := moved.version
          lastActionID := moved.lastActionID, lastActionHash := moved.lastActionHash }
      let (eventID, c) := { c with sessions }.insertCallEvent eventType moved now
      pure ((moved, eventID), c)

/-- `PruneCallSessions`. -/
def pruneCallSessions (c : CallStore) (now : Time) : CallStore :=
  let page := sweepPage c.sessions.rows (fun call => ¬ call.unexpired now)
    (fun call => call.expiresAt.getD 0) (·.id)
  { c with sessions := c.sessions.delete (· ∈ page) }

/-- What deleting an account does to its calls: open ones end, and the metadata goes. -/
def endCallsOf (c : CallStore) (now : Time) (accountID : AccountID) : CallStore :=
  let sessions := c.sessions.update (fun call => call.createdBy = accountID ∧ ¬ call.state.isTerminal)
    fun call => { call with
      state := .ended
      endedAt := some now
      expiresAt := some (now + 7 * 24 * 60 * 60 * second)
      version := call.version + 1 }
  { c with sessions := sessions.update (·.createdBy = accountID) fun call =>
      { call with metadata := .blank } }

/-- The sessions after a committed call of the store. -/
def afterCall (c : CallStore) : Call → CallStore
  | .deleteAccountData now accountID => c.endCallsOf now accountID
  | _ => c

end CallStore

inductive CallRequest
  | base (call : Call)
  | createCallSession (now : Time) (newID : CallID) (conversationID : ConversationID)
      (accountID : AccountID) (metadata : Option CallMetadata) (withSyncEvent : Bool)
  | transitionCallSession (now : Time) (callID : CallID) (accountID : AccountID) (expectedVersion : ℕ)
      (nextState : Option CallState) (metadata : Option CallMetadata) (withSyncEvent : Bool)
  | pruneCallSessions (now : Time)

inductive CallAnswer
  | base (answer : Answer)
  | session (call : CallSession) (eventID : EventID)
  | done
  deriving DecidableEq, Repr

def callStep (limits : Limits) (c : CallStore) : CallRequest → Except StoreError (CallAnswer × CallStore)
  | .base call => do
    let (answer, store) ← step limits c.store call
    pure (.base answer, { c.afterCall call with store })
  | .createCallSession now newID conversationID accountID metadata withSyncEvent =>
    (c.createCallSession now newID conversationID accountID metadata
      (if withSyncEvent then some .callSignaling else none)).map fun ((call, eventID), c) =>
        (.session call eventID, c)
  | .transitionCallSession now callID accountID expectedVersion nextState metadata withSyncEvent =>
    (c.transitionCallSession now callID accountID expectedVersion nextState metadata
      (if withSyncEvent then some .callState else none)).map fun ((call, eventID), c) =>
        (.session call eventID, c)
  | .pruneCallSessions now => .ok (.done, c.pruneCallSessions now)

abbrev CallEntry := Served CallStore CallRequest StoreError CallAnswer

end Veritra.Storage
