import Veritra.Model.Storage.HistoryTransfers

/-! # Passwords and account recovery

Password changes and the recovery of an account whose devices are lost, from `identity_store.go` and
`account_recovery_store.go`. A claim stores the credentials that it proved and waits, if the account
still has an active device; it completes only while those credentials are the account's. A change of
the password or of the recovery key cancels the waiting request in its own transaction. Verifying a
password against a hash compares it with the hashed password.
-/

namespace Veritra.Storage

open Relational Machine

/-- `RecoveryRequestUnclaimedLifetime`. -/
def recoveryRequestUnclaimedLifetime : Time := 3 * day

/-- A claim whose credentials the handler has verified. -/
structure RecoveryClaimInput where
  reservationID : String
  accountID : AccountID
  deviceName : String
  keyPackage : Bytes
  signingKey : Bytes
  deviceAuthHash : String
  claimTokenHash : TokenHash
  verifiedPasswordHash : PasswordHash
  verifiedAuthKey : Bytes
  activeWindow : Time
  wait : Time
  deriving DecidableEq, Repr

/-- The request that a claim stores. -/
def RecoveryClaimInput.request (input : RecoveryClaimInput) (id : String) (deviceID : DeviceID)
    (now readyAt : Time) : RecoveryRequest where
  id
  accountID := input.accountID
  deviceID
  deviceName := trimSpace input.deviceName
  keyPackage := input.keyPackage
  signingKey := input.signingKey
  deviceAuthHash := input.deviceAuthHash
  claimTokenHash := input.claimTokenHash
  verifiedPasswordHash := input.verifiedPasswordHash
  verifiedAuthKey := input.verifiedAuthKey
  state := .waiting
  createdAt := now
  readyAt
  expiresAt := readyAt + recoveryRequestUnclaimedLifetime
  completedAt := none

/-- What a recovery request answers. -/
inductive RecoveryReply
  | done
  /-- The stored claim, and whether an active device makes it wait. -/
  | claimed (request : RecoveryRequest) (activeDeviceSeen : Bool)
  | waiting (readyAt : Time)
  | completed (accountID : AccountID) (deviceID : DeviceID) (sessionIssued : Bool)
      (revokedDevices : List DeviceID)
  /-- The refusal of a request that is over, which commits what the call found out. -/
  | cancelled
  deriving DecidableEq, Repr

namespace Database

/-- The account has the password hash. -/
def hasPasswordHash (db : Database) (accountID : AccountID) (hash : PasswordHash) : Prop :=
  ∃ c ∈ db.accounts.credentials, c.accountID = accountID ∧ c.passwordHash = some hash
  deriving Decidable

def hasRecoveryKey (db : Database) (accountID : AccountID) (authPublicKey : Bytes) : Prop :=
  ∃ k ∈ db.accounts.recoveryKeys, k.accountID = accountID ∧ k.authPublicKey = authPublicKey
  deriving Decidable

def undeleted (db : Database) (accountID : AccountID) : Prop :=
  ∃ a ∈ db.store.accounts, a.id = accountID ∧ a.deletedAt = none
  deriving Decidable

/-- `UPDATE accounts SET password_hash`. -/
def setPasswordHash (db : Database) (accountID : AccountID) (hash : PasswordHash) : Database :=
  { db with accounts := { db.accounts with
      credentials := db.accounts.credentials.update (·.accountID = accountID)
        fun c => { c with passwordHash := some hash } } }

/-- `cancelWaitingRecoveryRequestTx`. -/
def cancelWaitingRecovery (db : Database) (accountID : AccountID) (now : Time) : Database :=
  match db.recoveries.rows.find? fun r => r.accountID = accountID ∧ r.state = .waiting with
  | none => db
  | some request =>
    { db with
      recoveries := db.recoveries.update (fun r => r.id = request.id ∧ r.state = .waiting)
        fun r => { r with state := .cancelled }
      store := (db.store.insertSyncEvent .accountRecoveryCancelled (some accountID) none .other now).2 }

/-- Change the password: every other session of the account goes, and a waiting recovery with it. -/
def changePassword (db : Database) (now : Time) (accountID : AccountID) (keepTokenHash : TokenHash)
    (newPasswordHash : PasswordHash) : Except StoreError Database := do
  require (db.undeleted accountID) StoreError.notFound
  let sessions := (db.sessions.delete fun s => s.accountID = accountID ∧ s.tokenHash ≠ keepTokenHash).update
    (·.tokenHash = keepTokenHash) fun s => { s.dropPrevious with recentAuthAt := some now }
  pure ({ db.setPasswordHash accountID newPasswordHash with sessions }.cancelWaitingRecovery accountID now)

/-- Reset the owner's password from the command line. -/
def resetOwnerPassword (db : Database) (now : Time) (username : String) (newPasswordHash : PasswordHash) :
    Except StoreError Database := do
  let some c := db.accounts.credentials.findIndex? username | .error .notFound
  require (∃ a ∈ db.store.accounts, a.id = c.accountID ∧ a.role = .owner ∧ a.deletedAt = none)
    StoreError.notFound
  pure ({ db.setPasswordHash c.accountID newPasswordHash with
    sessions := db.sessions.delete (·.accountID = c.accountID) }.cancelWaitingRecovery c.accountID now)

/-- Replace a hash by a rehash of the same password. A waiting recovery that verified the old hash
moves with it. -/
def upgradePasswordHash (db : Database) (accountID : AccountID) (currentHash : PasswordHash)
    (salt : String) : Database :=
  let updatedHash : PasswordHash := { currentHash with salt }
  if db.hasPasswordHash accountID currentHash ∧ db.undeleted accountID then
    { db.setPasswordHash accountID updatedHash with
      recoveries := db.recoveries.update
        (fun r => r.accountID = accountID ∧ r.state = .waiting ∧ r.verifiedPasswordHash = currentHash)
        fun r => { r with verifiedPasswordHash := updatedHash } }
  else db

/-- A device of the account is unrevoked, was seen within the window and has a live session. -/
def activeDeviceSeen (config : Config) (db : Database) (accountID : AccountID) (activeWindow now : Time) :
    Prop :=
  ∃ d ∈ db.store.devices, d.accountID = accountID ∧ d.revokedAt = none ∧
    now < ((db.accounts.deviceKeys.find? d.id).bind (·.lastSeenAt)).getD d.createdAt + activeWindow ∧
    ∃ s ∈ db.sessions, s.deviceID = some d.id ∧ s.live config.sessions now
  deriving Decidable

/-- Store a verified claim. It replaces the account's waiting request. -/
def claimRecovery (config : Config) (db : Database) (now : Time) (id : String)
    (input : RecoveryClaimInput) : Except StoreError ((RecoveryRequest × Bool) × Database) := do
  let reservation ← db.enrollmentReservation now input.reservationID .recovery
  require (reservation.accountID = input.accountID) StoreError.enrollmentInvalid
  require (db.store.activeAccount input.accountID ∧
    db.hasPasswordHash input.accountID input.verifiedPasswordHash ∧
    db.hasRecoveryKey input.accountID input.verifiedAuthKey) StoreError.unauthorized
  let active := decide (db.activeDeviceSeen config input.accountID input.activeWindow now)
  let readyAt := if active then now + input.wait else now
  let request := input.request id reservation.deviceID now readyAt
  let db := (db.consumeEnrollmentReservation now reservation.id).cancelWaitingRecovery input.accountID now
  require (∀ r ∈ db.recoveries, r.deviceID ≠ request.deviceID ∧ r.claimTokenHash ≠ request.claimTokenHash ∧
    ¬ (r.accountID = request.accountID ∧ r.state = .waiting)) StoreError.uniqueConstraint
  match db.recoveries.insert? request with
  | none => .error .uniqueConstraint
  | some recoveries =>
    pure ((request, active),
      { db with
        recoveries
        store := (db.store.insertSyncEvent .accountRecoveryPending (some input.accountID) none .other now).2 })

/-- Move a waiting request to another state. -/
def closeRecovery (db : Database) (id : String) (state : RecoveryState) (completedAt : Option Time) :
    Database :=
  { db with
    recoveries := db.recoveries.update (fun r => r.id = id ∧ r.state = .waiting)
      fun r => { r with state, completedAt } }

/-- Replace the account's devices by the one of the request. Every old device is revoked with its
sessions and its links before the new one exists. -/
def recoverDevices (config : Config) (db : Database) (now : Time) (request : RecoveryRequest)
    (keyPackageID : String) (sessionTokenHash : TokenHash) :
    Except StoreError (List DeviceID × Database) := do
  let oldDevices := db.store.accountDeviceIDs request.accountID (·.revokedAt = none)
  let db := oldDevices.foldl
    (fun db deviceID => db.retireDeviceLinksForDevice request.accountID deviceID now) db
  let (_, store) ← db.store.completeRecovery now request.accountID request.deviceID
  let sessions := db.sessions.delete fun s =>
    (∃ deviceID ∈ oldDevices, s.deviceID = some deviceID) ∨ (s.accountID = request.accountID ∧ s.deviceID = none)
  let db ← { db with store, sessions }.insertDeviceKeys now
    ⟨request.deviceID, request.deviceName, request.keyPackage, request.signingKey, request.deviceAuthHash, keyPackageID⟩
  -- The forced changes after a recovery need a reauthentication.
  let sessions ← db.insertSession
    (config.newSession now sessionTokenHash request.accountID request.deviceID none none)
  pure (oldDevices, { db with sessions })

/-- Answer the holder of a claim token, and complete its request when it is ready. -/
def completeRecovery (config : Config) (db : Database) (now : Time) (keyPackageID id : String)
    (claimTokenHash sessionTokenHash : TokenHash) : Except StoreError (RecoveryReply × Database) := do
  let some request := db.recoveries.find? (trimSpace id) | .error .notFound
  require (request.claimTokenHash = claimTokenHash) StoreError.notFound
  match request.state with
  | .completed => pure (.completed request.accountID request.deviceID false [], db)
  | .waiting =>
    if request.expiresAt ≤ now then pure (.cancelled, db.closeRecovery request.id .expired none)
    else if now < request.readyAt then pure (.waiting request.readyAt, db)
    -- An account that an admin makes active again can still finish.
    else if ¬ db.store.activeAccount request.accountID then .error .recoveryCancelled
    else if ¬ (db.hasPasswordHash request.accountID request.verifiedPasswordHash ∧
        db.hasRecoveryKey request.accountID request.verifiedAuthKey) then
      pure (.cancelled, db.closeRecovery request.id .cancelled none)
    else
      let (oldDevices, db) ← recoverDevices config db now request keyPackageID sessionTokenHash
      pure (.completed request.accountID request.deviceID true oldDevices,
        db.closeRecovery request.id .completed (some now))
  | _ => .error .recoveryCancelled

def cancelRecoveryRequest (db : Database) (now : Time) (accountID : AccountID) (id : String) :
    Except StoreError Database := do
  require (∃ r ∈ db.recoveries, r.id = trimSpace id ∧ r.accountID = accountID ∧ r.state = .waiting)
    StoreError.notFound
  pure (db.cancelWaitingRecovery accountID now)

/-- Set or replace the recovery key; a waiting request goes. -/
def setRecoveryKey (db : Database) (now : Time) (accountID : AccountID) (authPublicKey rkID : Bytes) :
    Except StoreError Database := do
  require (authPublicKey.length = 32 ∧ rkID.length = 16) StoreError.invalidInput
  require (db.store.activeAccount accountID) StoreError.notFound
  let db := { db with accounts := { db.accounts with
    recoveryKeys := db.accounts.recoveryKeys.upsert ⟨accountID, authPublicKey, rkID⟩
      fun k => { k with authPublicKey, rkID } } }
  let db := db.cancelWaitingRecovery accountID now
  pure { db with
    store := (db.store.insertSyncEvent .accountRecoveryKeySet (some accountID) none .other now).2 }

end Database

/-- The requests about passwords. -/
inductive PasswordRequest
  | change (accountID : AccountID) (keepTokenHash : TokenHash) (newPasswordHash : PasswordHash)
  | resetOwner (username : String) (newPasswordHash : PasswordHash)
  | upgradeHash (accountID : AccountID) (currentHash : PasswordHash) (salt : String)

/-- The requests about recovery. -/
inductive RecoveryCall
  | claim (id : String) (input : RecoveryClaimInput)
  | complete (keyPackageID id : String) (claimTokenHash sessionTokenHash : TokenHash)
  | cancel (accountID : AccountID) (id : String)
  | setKey (accountID : AccountID) (authPublicKey rkID : Bytes)

namespace Database

def passwordStep (db : Database) (now : Time) : PasswordRequest → Except StoreError Database
  | .change accountID keepTokenHash newPasswordHash =>
    db.changePassword now accountID keepTokenHash newPasswordHash
  | .resetOwner username newPasswordHash => db.resetOwnerPassword now username newPasswordHash
  | .upgradeHash accountID currentHash salt => .ok (db.upgradePasswordHash accountID currentHash salt)

def recoveryStep (config : Config) (db : Database) (now : Time) :
    RecoveryCall → Except StoreError (RecoveryReply × Database)
  | .claim id input =>
    (claimRecovery config db now id input).map fun ((request, active), db) => (.claimed request active, db)
  | .complete keyPackageID id claimTokenHash sessionTokenHash =>
    completeRecovery config db now keyPackageID id claimTokenHash sessionTokenHash
  | .cancel accountID id => (db.cancelRecoveryRequest now accountID id).map (.done, ·)
  | .setKey accountID authPublicKey rkID =>
    (db.setRecoveryKey now accountID authPublicKey rkID).map (.done, ·)

end Database
end Veritra.Storage
