import Veritra.Model.Storage.Sessions

/-! # One-time key packages

A device publishes key packages, and other devices claim them to add it to a group, from
`key_package_store.go` and `mls_group_store.go`. A claim for a whole conversation takes one package of
every other device or none at all; a claim for listed devices skips those that have none left or are
over the limit.
-/

namespace Veritra.Storage

open Relational Machine

/-- `KeyPackageClaimWindow`. -/
def keyPackageClaimWindow : Time := 24 * hour

def maxAvailableKeyPackages : ℕ := 50

/-- `maxMLSBundleChanges`. -/
def maxClaimedDevices : ℕ := 256

/-- `openMLSCiphersuite`. -/
def openMLSCiphersuite : String := "MLS_128_DHKEMX25519_AES128GCM_SHA256_Ed25519"

def KeyPackage.available (package : KeyPackage) (now : Time) : Prop :=
  package.claimedAt = none ∧ now < package.expiresAt
  deriving Decidable

/-- `ORDER BY created_at, id`. -/
def KeyPackage.order (left right : KeyPackage) : Prop :=
  left.createdAt < right.createdAt ∨ (left.createdAt = right.createdAt ∧ left.id ≤ right.id)
  deriving Decidable

/-- A package that a device publishes, with the id the server gives it. -/
structure NewDeviceKeyPackage where
  id : String
  keyPackage : Bytes
  ciphersuite : String
  expiresAt : Time
  deriving DecidableEq, Repr

/-- A claimed package as the claimer gets it. -/
structure DeviceKeyPackage where
  id : String
  deviceID : DeviceID
  accountID : AccountID
  keyPackage : Bytes
  ciphersuite : String
  createdAt : Time
  expiresAt : Time
  deriving DecidableEq, Repr

abbrev KeyPackages := Table KeyPackage KeyPackage.id

def KeyPackages.insertEach (packages : KeyPackages) (deviceID : DeviceID) (now : Time) :
    List NewDeviceKeyPackage → Except StoreError KeyPackages
  | [] => .ok packages
  | new :: rest =>
    match packages.insert? ⟨new.id, deviceID, new.keyPackage, new.ciphersuite, now, new.expiresAt,
      none, none⟩ with
    | none => .error .uniqueConstraint
    | some packages => KeyPackages.insertEach packages deviceID now rest

/-- `insertInitialDeviceKeyPackage`. -/
def KeyPackages.insertInitial (packages : KeyPackages) (id : String) (deviceID : DeviceID)
    (keyPackage : Bytes) (now : Time) : Except StoreError KeyPackages :=
  packages.insertEach deviceID now [⟨id, keyPackage, openMLSCiphersuite, now + 30 * day⟩]

namespace Database

def publishDeviceKeyPackages (db : Database) (now : Time) (deviceID : DeviceID)
    (new : List NewDeviceKeyPackage) : Except StoreError KeyPackages := do
  require (db.store.unrevoked deviceID) StoreError.forbidden
  let available := db.keyPackages.rows.filter fun p => p.deviceID = deviceID ∧ p.available now
  require (available.length + new.length ≤ maxAvailableKeyPackages) StoreError.storageQuota
  KeyPackages.insertEach db.keyPackages deviceID now new

/-- The packages of the device that the account claimed within the window before `now`. -/
def recentClaims (store : Store) (packages : KeyPackages) (targetDeviceID : DeviceID)
    (requesterAccountID : AccountID) (now : Time) : List KeyPackage :=
  packages.rows.filter fun p => p.deviceID = targetDeviceID ∧
    (∃ claimedAt ∈ p.claimedAt, now < claimedAt + keyPackageClaimWindow) ∧
    ∃ d ∈ store.devices, p.claimedByDeviceID = some d.id ∧ d.accountID = requesterAccountID

/-- `keyPackageClaimAllowed`: an account's claims on its own devices are not limited. -/
def keyPackageClaimAllowed (config : Config) (store : Store) (packages : KeyPackages) (target : Device)
    (requesterAccountID : AccountID) (now : Time) : Prop :=
  target.accountID = requesterAccountID ∨
    (recentClaims store packages target.id requesterAccountID now).length < config.keyPackageClaimsPerTarget
  deriving Decidable

/-- The device's oldest available package. -/
def nextKeyPackage (packages : KeyPackages) (deviceID : DeviceID) (now : Time) : Option KeyPackage :=
  ((packages.rows.filter fun p => p.deviceID = deviceID ∧ p.available now).insertionSort
    KeyPackage.order).head?

def handOut (packages : KeyPackages) (package : KeyPackage) (requesterDeviceID : DeviceID) (now : Time) :
    KeyPackages :=
  packages.update (fun p => p.id = package.id ∧ p.claimedAt = none)
    fun p => { p with claimedAt := some now, claimedByDeviceID := some requesterDeviceID }

def claimedItem (package : KeyPackage) (target : Device) : DeviceKeyPackage :=
  ⟨package.id, target.id, target.accountID, package.keyPackage, package.ciphersuite,
    package.createdAt, package.expiresAt⟩

/-- Claim one package of every target, or refuse. -/
def claimEach (config : Config) (store : Store) (requesterAccountID : AccountID)
    (requesterDeviceID : DeviceID) (now : Time) (packages : KeyPackages) :
    List Device → Except StoreError (List DeviceKeyPackage × KeyPackages)
  | [] => .ok ([], packages)
  | target :: rest => do
    require (keyPackageClaimAllowed config store packages target requesterAccountID now)
      StoreError.keyPackageClaimLimit
    let some package := nextKeyPackage packages target.id now | .error .keyPackageUnavailable
    require (∃ d ∈ store.devices, d.id = requesterDeviceID) StoreError.foreignKeyConstraint
    let (items, packages) ← claimEach config store requesterAccountID requesterDeviceID now
      (handOut packages package requesterDeviceID now) rest
    pure (claimedItem package target :: items, packages)

/-- Claim one package of each target that has one left and is under the limit. -/
def claimSome (config : Config) (store : Store) (requesterAccountID : AccountID)
    (requesterDeviceID : DeviceID) (now : Time) (packages : KeyPackages) :
    List Device → List DeviceKeyPackage × KeyPackages
  | [] => ([], packages)
  | target :: rest =>
    match nextKeyPackage packages target.id now with
    | some package =>
      if keyPackageClaimAllowed config store packages target requesterAccountID now then
        let (items, packages) := claimSome config store requesterAccountID requesterDeviceID now
          (handOut packages package requesterDeviceID now) rest
        (claimedItem package target :: items, packages)
      else claimSome config store requesterAccountID requesterDeviceID now packages rest
    | none => claimSome config store requesterAccountID requesterDeviceID now packages rest

/-- `ORDER BY d.account_id, d.id`. -/
def deviceOrder (left right : Device) : Prop :=
  left.accountID < right.accountID ∨ (left.accountID = right.accountID ∧ left.id ≤ right.id)
  deriving Decidable

/-- The unrevoked devices of the conversation's members, without the requester's. -/
def claimTargets (store : Store) (conversationID : ConversationID) (requesterDeviceID : DeviceID) :
    List Device :=
  (store.devices.rows.filter fun d => store.isConversationMember conversationID d.accountID ∧
    d.revokedAt = none ∧ d.id ≠ requesterDeviceID).insertionSort deviceOrder

/-- Claim a package of every other device of the conversation. -/
def claimConversationKeyPackages (config : Config) (db : Database) (now : Time)
    (conversationID : ConversationID) (requesterAccountID : AccountID) (requesterDeviceID : DeviceID) :
    Except StoreError (List DeviceKeyPackage × KeyPackages) := do
  require (db.store.isConversationMember conversationID requesterAccountID) StoreError.notMember
  claimEach config db.store requesterAccountID requesterDeviceID now db.keyPackages
    (claimTargets db.store conversationID requesterDeviceID)

/-- The listed devices: each one trimmed, different from the others and from the requester's, and an
unrevoked device of a member. -/
def listedTargets (store : Store) (conversationID : ConversationID) (requesterDeviceID : DeviceID) :
    List DeviceID → List DeviceID → Except StoreError (List Device)
  | _, [] => .ok []
  | seen, deviceID :: rest => do
    let deviceID := trimSpace deviceID
    require (deviceID ≠ "" ∧ deviceID ≠ requesterDeviceID ∧ deviceID ∉ seen) StoreError.invalidInput
    let some target := store.devices.find? deviceID | .error .forbidden
    require (store.isConversationMember conversationID target.accountID ∧ target.revokedAt = none)
      StoreError.forbidden
    let targets ← listedTargets store conversationID requesterDeviceID (deviceID :: seen) rest
    pure (target :: targets)

/-- Claim packages of the listed devices, for adding them to an existing group. -/
def claimDeviceKeyPackages (config : Config) (db : Database) (now : Time)
    (conversationID : ConversationID) (requesterAccountID : AccountID) (requesterDeviceID : DeviceID)
    (deviceIDs : List DeviceID) : Except StoreError (List DeviceKeyPackage × KeyPackages) := do
  require (deviceIDs ≠ [] ∧ deviceIDs.length ≤ maxClaimedDevices) StoreError.invalidInput
  require (db.store.isConversationMember conversationID requesterAccountID) StoreError.notMember
  require (db.store.activeMLSDevice conversationID requesterDeviceID) StoreError.mlsNotInGroup
  let targets ← listedTargets db.store conversationID requesterDeviceID [] deviceIDs
  pure (claimSome config db.store requesterAccountID requesterDeviceID now db.keyPackages targets)

end Database

/-- The requests that write key packages only. -/
inductive KeyPackageRequest
  | publish (deviceID : DeviceID) (new : List NewDeviceKeyPackage)
  | claimConversation (conversationID : ConversationID) (requesterAccountID : AccountID)
      (requesterDeviceID : DeviceID)
  | claimDevices (conversationID : ConversationID) (requesterAccountID : AccountID)
      (requesterDeviceID : DeviceID) (deviceIDs : List DeviceID)

/-- Serve a key-package request. The answer is the list of packages handed out. -/
def Database.keyPackageStep (config : Config) (db : Database) (now : Time) :
    KeyPackageRequest → Except StoreError (List DeviceKeyPackage × KeyPackages)
  | .publish deviceID new => (db.publishDeviceKeyPackages now deviceID new).map ([], ·)
  | .claimConversation conversationID requesterAccountID requesterDeviceID =>
    claimConversationKeyPackages config db now conversationID requesterAccountID requesterDeviceID
  | .claimDevices conversationID requesterAccountID requesterDeviceID deviceIDs =>
    claimDeviceKeyPackages config db now conversationID requesterAccountID requesterDeviceID deviceIDs

end Veritra.Storage
