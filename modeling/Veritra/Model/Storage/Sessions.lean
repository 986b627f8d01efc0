import Veritra.Model.Storage.BlobStore

/-! # Sessions

Bearer sessions, from `identity_store.go`. A session row has one current token and may keep the token
that the last rotation replaced for a short grace. Every lookup checks the expiry, the absolute
expiry, the idle time, the account and the device.
-/

namespace Veritra.Storage

open Relational Machine

def sessionRotationGrace : Time := 2 * minute

def sessionTouchInterval : Time := minute

def deviceSeenInterval : Time := 5 * minute

def Store.activeAccount (s : Store) (accountID : AccountID) : Prop :=
  ∃ a ∈ s.accounts, a.id = accountID ∧ a.status = .active ∧ a.deletedAt = none
  deriving Decidable

def Store.unrevoked (s : Store) (deviceID : DeviceID) : Prop :=
  ∃ d ∈ s.devices, d.id = deviceID ∧ d.revokedAt = none
  deriving Decidable

/-- Neither expiry has passed and the session was used within the idle lifetime. -/
def Session.live (policy : SessionPolicy) (session : Session) (now : Time) : Prop :=
  now < session.expiresAt ∧ now < session.absoluteExpiresAt ∧ now < session.lastUsedAt + policy.idle
  deriving Decidable

def Session.inGrace (session : Session) (now : Time) : Prop :=
  ∃ graceEnd ∈ session.previousExpiresAt, now < graceEnd
  deriving Decidable

/-- The session answers to the token: its current one, or the previous one inside the grace. -/
def Session.answersTo (session : Session) (tokenHash : TokenHash) (now : Time) : Prop :=
  session.tokenHash = tokenHash ∨ session.previousTokenHash = some tokenHash ∧ session.inGrace now
  deriving Decidable

def Session.dropPrevious (session : Session) : Session :=
  { session with previousTokenHash := none, previousExpiresAt := none }

/-- Extend the idle expiry up to the absolute one, and drop a previous token whose grace has ended. -/
def Session.touch (session : Session) (policy : SessionPolicy) (now : Time) : Session :=
  { session with
    lastUsedAt := now
    expiresAt := if session.absoluteExpiresAt < now + policy.idle then session.absoluteExpiresAt
      else now + policy.idle
    previousTokenHash := if session.inGrace now then session.previousTokenHash else none
    previousExpiresAt := if session.inGrace now then session.previousExpiresAt else none }

/-- `sessionLifetime`: a requested expiry can only shorten the idle one. -/
def Config.sessionLifetime (config : Config) (now : Time) (requested : Option Time) : Time × Time :=
  let idleExpiry := now + config.sessions.idle
  (match requested with
    | some requested => min requested idleExpiry
    | none => idleExpiry,
    now + config.sessions.absolute)

def Config.newSession (config : Config) (now : Time) (tokenHash : TokenHash) (accountID : AccountID)
    (deviceID : DeviceID) (recentAuthAt requested : Option Time) : Session :=
  let lifetime := config.sessionLifetime now requested
  { tokenHash, accountID, deviceID := some deviceID, expiresAt := lifetime.1, recentAuthAt,
    lastUsedAt := now, absoluteExpiresAt := lifetime.2, previousTokenHash := none,
    previousExpiresAt := none }

/-- The session after a rotation. The presented token becomes the previous one if it was current;
otherwise the previous token and its grace stay. -/
def Session.rotate (session : Session) (config : Config) (now : Time)
    (presentedTokenHash newTokenHash : TokenHash) : Session :=
  let current := session.tokenHash = presentedTokenHash
  let lifetime := config.sessionLifetime now none
  { session with
    previousTokenHash := if current then some session.tokenHash else session.previousTokenHash
    previousExpiresAt := if current then some (now + sessionRotationGrace) else session.previousExpiresAt
    tokenHash := newTokenHash
    recentAuthAt := some now
    lastUsedAt := now
    expiresAt := lifetime.1
    absoluteExpiresAt := lifetime.2 }

/-- `sessionValidity`. -/
def Database.sessionValidity (config : Config) (db : Database) (session : Session) (now : Time) : Prop :=
  session.live config.sessions now ∧ db.store.activeAccount session.accountID ∧
    ∀ deviceID ∈ session.deviceID, db.store.unrevoked deviceID
  deriving Decidable

/-- Whom a token stands for, and the stored activity of the session. -/
structure Principal where
  accountID : AccountID
  deviceID : Option DeviceID
  expiresAt : Time
  recentAuthAt : Option Time
  lastUsedAt : Time
  deviceLastSeenAt : Option Time
  rotatedOut : Bool
  deriving DecidableEq, Repr

/-- `SessionTouchDue`. -/
def Principal.sessionTouchDue (principal : Principal) (now : Time) : Prop :=
  principal.rotatedOut = false ∧ principal.lastUsedAt + sessionTouchInterval ≤ now

/-- `recentlyAuthenticated`. -/
def Principal.recentlyAuthenticated (principal : Principal) (now : Time) : Prop :=
  principal.deviceID ≠ none ∧ ∃ recentAuthAt ∈ principal.recentAuthAt, now < recentAuthAt + 5 * minute

abbrev Sessions := Table Session Session.tokenHash

namespace Database

/-- `INSERT INTO sessions`. -/
def insertSession (db : Database) (session : Session) : Except StoreError Sessions := do
  require (∀ deviceID ∈ session.deviceID, ∃ d ∈ db.store.devices, d.id = deviceID)
    StoreError.foreignKeyConstraint
  match db.sessions.insert? session with
  | none => .error .uniqueConstraint
  | some sessions => pure sessions

def principal (db : Database) (session : Session) (rotatedOut : Bool) : Principal where
  accountID := session.accountID
  deviceID := session.deviceID
  expiresAt := if rotatedOut then min (session.previousExpiresAt.getD 0) session.expiresAt
    else session.expiresAt
  recentAuthAt := if rotatedOut then none else session.recentAuthAt
  lastUsedAt := session.lastUsedAt
  deviceLastSeenAt := session.deviceID.bind fun deviceID =>
    (db.accounts.deviceKeys.find? deviceID).bind (·.lastSeenAt)
  rotatedOut

/-- Resolve a token: the session that has it as its current token, or else the one that has it as its
previous token inside the grace. -/
def sessionPrincipal (config : Config) (db : Database) (tokenHash : TokenHash) (now : Time) :
    Except StoreError Principal :=
  match db.sessions.rows.find? fun s => s.tokenHash = tokenHash ∧ db.sessionValidity config s now with
  | some session => .ok (db.principal session false)
  | none =>
    match db.sessions.rows.find? fun s => s.previousTokenHash = some tokenHash ∧ s.inGrace now ∧
        db.sessionValidity config s now with
    | some session => .ok (db.principal session true)
    | none => .error .unauthorized

/-- Create the session that a password login earned, while the account still has the hash that the
login verified. -/
def createLoginSession (config : Config) (db : Database) (now : Time) (tokenHash : TokenHash)
    (accountID : AccountID) (deviceID : DeviceID) (verifiedPasswordHash : PasswordHash) :
    Except StoreError Sessions := do
  require (¬ isBlank deviceID) StoreError.forbidden
  require ((∃ c ∈ db.accounts.credentials, c.accountID = accountID ∧
    c.passwordHash = some verifiedPasswordHash) ∧ db.store.activeAccount accountID)
    StoreError.unauthorized
  db.insertSession (config.newSession now tokenHash accountID (trimSpace deviceID) (some now) none)

/-- Log out by the current token or by the previous one inside the grace. -/
def deleteSession (db : Database) (now : Time) (tokenHash : TokenHash) : Sessions :=
  db.sessions.delete (·.answersTo tokenHash now)

/-- Log out the other sessions of the account; the kept one loses its previous token. -/
def deleteAccountSessionsExcept (db : Database) (accountID : AccountID) (keepTokenHash : TokenHash) :
    Sessions :=
  (db.sessions.delete fun s => s.accountID = accountID ∧ s.tokenHash ≠ keepTokenHash).update
    (fun s => s.accountID = accountID ∧ s.tokenHash = keepTokenHash) Session.dropPrevious

/-- Record the use of a session, at most once per interval. -/
def touchSession (config : Config) (db : Database) (now : Time) (tokenHash : TokenHash) :
    Except StoreError Sessions := do
  require (∃ s ∈ db.sessions, s.tokenHash = tokenHash ∧ s.live config.sessions now) StoreError.unauthorized
  pure (db.sessions.update
    (fun s => s.tokenHash = tokenHash ∧ s.live config.sessions now ∧ s.lastUsedAt + sessionTouchInterval ≤ now)
    fun s => s.touch config.sessions now)

/-- Record a reauthentication that does not rotate the token. -/
def markSessionRecentlyAuthenticated (config : Config) (db : Database) (now : Time)
    (tokenHash : TokenHash) : Except StoreError Sessions := do
  require (∃ s ∈ db.sessions, s.tokenHash = tokenHash ∧ s.live config.sessions now) StoreError.unauthorized
  pure (db.sessions.update (fun s => s.tokenHash = tokenHash ∧ s.live config.sessions now)
    fun s => { s with recentAuthAt := some now, lastUsedAt := now })

/-- Give the session that answers to the presented token a new one. -/
def rotateSession (config : Config) (db : Database) (now : Time)
    (presentedTokenHash newTokenHash : TokenHash) : Except StoreError Sessions := do
  require (presentedTokenHash ≠ "" ∧ newTokenHash ≠ "" ∧ presentedTokenHash ≠ newTokenHash)
    StoreError.unauthorized
  match db.sessions.rows.filter fun s => s.answersTo presentedTokenHash now ∧ s.live config.sessions now with
  | [] => .error .unauthorized
  | [session] =>
    -- The token is the key of the row, so the row is taken out and put back under the new one.
    match (db.sessions.delete (·.tokenHash = session.tokenHash)).insert?
        (session.rotate config now presentedTokenHash newTokenHash) with
    | none => .error .uniqueConstraint
    | some sessions => pure sessions
  | _ => .error .uniqueConstraint

end Database

/-- The requests that write sessions only. -/
inductive SessionRequest
  | createLoginSession (tokenHash : TokenHash) (accountID : AccountID) (deviceID : DeviceID)
      (verifiedPasswordHash : PasswordHash)
  | deleteSession (tokenHash : TokenHash)
  | deleteAccountSessionsExcept (accountID : AccountID) (keepTokenHash : TokenHash)
  | touchSession (tokenHash : TokenHash)
  | markSessionRecentlyAuthenticated (tokenHash : TokenHash)
  | rotateSession (presentedTokenHash newTokenHash : TokenHash)

namespace Database

def sessionStep (config : Config) (db : Database) (now : Time) :
    SessionRequest → Except StoreError Sessions
  | .createLoginSession tokenHash accountID deviceID verifiedPasswordHash =>
    createLoginSession config db now tokenHash accountID deviceID verifiedPasswordHash
  | .deleteSession tokenHash => .ok (db.deleteSession now tokenHash)
  | .deleteAccountSessionsExcept accountID keepTokenHash =>
    .ok (db.deleteAccountSessionsExcept accountID keepTokenHash)
  | .touchSession tokenHash => touchSession config db now tokenHash
  | .markSessionRecentlyAuthenticated tokenHash => markSessionRecentlyAuthenticated config db now tokenHash
  | .rotateSession presentedTokenHash newTokenHash =>
    rotateSession config db now presentedTokenHash newTokenHash

/-- Record coarse activity of a device. -/
def markDeviceSeen (db : Database) (now : Time) (deviceID : DeviceID) : AccountTables :=
  { db.accounts with
    deviceKeys := db.accounts.deviceKeys.update
      (fun k => k.deviceID = trimSpace deviceID ∧ db.store.unrevoked k.deviceID ∧
        ∀ lastSeenAt ∈ k.lastSeenAt, lastSeenAt + deviceSeenInterval ≤ now)
      fun k => { k with lastSeenAt := some now } }

end Database
end Veritra.Storage
