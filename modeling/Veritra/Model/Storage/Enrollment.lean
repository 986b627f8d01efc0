import Veritra.Model.Storage.KeyPackages

/-! # Enrollment

Reserving an enrollment, creating an account with its first device, and the links of the older
protocol, from `enrollment_store.go`, `identity_store.go` and `community_store.go`. Invites and the
rows of the older links are outside the model: their requests are taken where those checks have passed.
-/

namespace Veritra.Storage

open Relational Machine

def enrollmentLifetime : Time := 10 * minute

/-- The key material of a new device, and the id that its first key package gets. -/
structure NewDevice where
  id : DeviceID
  name : String
  keyPackage : Bytes
  signingKey : Bytes
  authSecretHash : String
  keyPackageID : String
  deriving DecidableEq, Repr

/-- What a registration brings; the ids come from the reservation. -/
structure RegisterInput where
  enrollmentReservationID : String
  username : String
  passwordHash : PasswordHash
  deviceName : String
  keyPackage : Bytes
  signingKey : Bytes
  deviceAuthHash : String
  sessionHash : TokenHash
  sessionExpiry : Option Time
  keyPackageID : String
  deriving DecidableEq, Repr

namespace Database

/-- `checkDevices`: the account may have one more device. -/
def checkDevices (config : Config) (db : Database) (accountID : AccountID) : Except StoreError Unit :=
  require ((db.store.devices.rows.filter fun d => d.accountID = accountID ∧ d.revokedAt = none).length <
    config.devicesPerAccount) StoreError.deviceLimit

/-- The key columns of a new device, and its first key package. -/
def insertDeviceKeys (db : Database) (now : Time) (device : NewDevice) : Except StoreError Database :=
  match db.accounts.deviceKeys.insert?
      ⟨device.id, device.name, device.keyPackage, some device.signingKey, some device.authSecretHash, none⟩ with
  | none => .error .uniqueConstraint
  | some deviceKeys => do
    let keyPackages ←
      KeyPackages.insertInitial db.keyPackages device.keyPackageID device.id device.keyPackage now
    pure { db with accounts := { db.accounts with deviceKeys }, keyPackages }

/-- `createEnrollmentReservationFor`. -/
def createEnrollmentReservation (db : Database) (now : Time) (kind : ReservationKind) (id : String)
    (accountID : AccountID) (deviceID : DeviceID) : Except StoreError AccountTables :=
  match db.accounts.reservations.insert? ⟨id, kind, accountID, deviceID, now + enrollmentLifetime, none⟩ with
  | none => .error .uniqueConstraint
  | some reservations => .ok { db.accounts with reservations }

def reserveOwnerEnrollment (db : Database) (now : Time) (id : String) (accountID : AccountID)
    (deviceID : DeviceID) : Except StoreError AccountTables := do
  require (db.store.accounts.rows = []) StoreError.alreadySetup
  db.createEnrollmentReservation now .owner id accountID deviceID

def reserveRegistrationEnrollment (db : Database) (now : Time) (id : String) (accountID : AccountID)
    (deviceID : DeviceID) : Except StoreError AccountTables :=
  db.createEnrollmentReservation now .register id accountID deviceID

/-- Reserve a recovery. A name that is not an active account's gets its decoy id. -/
def reserveRecoveryEnrollment (db : Database) (now : Time) (id username : String)
    (decoyAccountID : AccountID) (deviceID : DeviceID) : Except StoreError AccountTables :=
  let accountID :=
    match db.accounts.credentials.findIndex? username with
    | some c => if db.store.activeAccount c.accountID then c.accountID else decoyAccountID
    | none => decoyAccountID
  db.createEnrollmentReservation now .recovery id accountID deviceID

/-- `enrollmentReservationForTx`. -/
def enrollmentReservation (db : Database) (now : Time) (id : String) (kind : ReservationKind) :
    Except StoreError EnrollmentReservation :=
  match db.accounts.reservations.find? (trimSpace id) with
  | none => .error .enrollmentInvalid
  | some reservation =>
    if reservation.kind = kind ∧ reservation.consumedAt = none ∧ now < reservation.expiresAt then
      .ok reservation
    else .error .enrollmentInvalid

/-- `consumeEnrollmentReservation` on a reservation that was just read. -/
def consumeEnrollmentReservation (db : Database) (now : Time) (id : String) : Database :=
  { db with accounts := { db.accounts with
      reservations := db.accounts.reservations.update
        (fun r => r.id = id ∧ r.consumedAt = none ∧ now < r.expiresAt)
        fun r => { r with consumedAt := some now } } }

def firstSession (config : Config) (db : Database) (now : Time) (input : RegisterInput)
    (reservation : EnrollmentReservation) : Except StoreError Sessions :=
  if input.sessionHash = "" then .ok db.sessions
  else db.insertSession (config.newSession now input.sessionHash reservation.accountID
    reservation.deviceID (some now) input.sessionExpiry)

/-- The rows of a new account, its first device and its first session. -/
def registerReserved (config : Config) (db : Database) (now : Time) (kind : ReservationKind) (role : Role)
    (input : RegisterInput) : Except StoreError Database := do
  let reservation ← db.enrollmentReservation now input.enrollmentReservationID kind
  match db.accounts.credentials.insert? ⟨reservation.accountID, input.username, some input.passwordHash⟩ with
  | none => .error .uniqueConstraint
  | some credentials =>
    let (_, store) ← db.store.registerAccount now reservation.accountID role reservation.deviceID
    let db ← { db with store, accounts := { db.accounts with credentials } }.insertDeviceKeys now
      ⟨reservation.deviceID, trimSpace input.deviceName, input.keyPackage, input.signingKey,
        input.deviceAuthHash, input.keyPackageID⟩
    let sessions ← firstSession config db now input reservation
    pure ({ db with sessions }.consumeEnrollmentReservation now reservation.id)

def createOwner (config : Config) (db : Database) (now : Time) (input : RegisterInput) :
    Except StoreError Database := do
  require (db.store.accounts.rows = []) StoreError.alreadySetup
  registerReserved config db now .owner .owner input

def registerWithInvite (config : Config) (db : Database) (now : Time) (input : RegisterInput) :
    Except StoreError Database :=
  registerReserved config db now .register .member input

/-- Approve a claimed link: the device joins the account. -/
def approveLegacyDeviceLink (config : Config) (db : Database) (now : Time) (accountID : AccountID)
    (device : NewDevice) (withSyncEvent : Bool) : Except StoreError Database := do
  checkDevices config db accountID
  let (_, store) ← db.store.enrollDevice now accountID device.id
  let db ← { db with store }.insertDeviceKeys now device
  if withSyncEvent then
    pure { db with
      store := (db.store.insertSyncEvent .deviceUpdated (some accountID) none (.device device.id) now).2 }
  else pure db

/-- Consume an approved link: its device gets a session. -/
def consumeApprovedDeviceLink (config : Config) (db : Database) (now : Time) (accountID : AccountID)
    (deviceID : DeviceID) (sessionTokenHash : TokenHash) (sessionExpiresAt : Option Time) :
    Except StoreError Sessions := do
  require (sessionTokenHash ≠ "" ∧ (∃ a ∈ db.store.accounts, a.id = accountID ∧ a.deletedAt = none) ∧
    ∃ d ∈ db.store.devices, d.id = deviceID ∧ d.accountID = accountID ∧ d.revokedAt = none)
    StoreError.deviceLinkInvalid
  db.insertSession
    (config.newSession now sessionTokenHash accountID deviceID (some now) sessionExpiresAt)

end Database
end Veritra.Storage
