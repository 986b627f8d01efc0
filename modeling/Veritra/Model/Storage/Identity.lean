import Veritra.Machine.Guard
import Veritra.Model.Storage.Revocations
import Veritra.Model.Storage.Text

/-! # Accounts and devices

The operations that add devices, revoke them, recover an account or delete it, from
`identity_store.go`, `account_store.go`, `account_recovery_store.go` and `admin_store.go`. Sessions,
invites, device links and recovery requests are outside the model, so an enrollment or a completed
recovery is taken at the point where their checks have passed.
-/

namespace Veritra.Storage

open Relational Machine

/-- `RoleRank`. -/
def Role.rank : Role → ℕ
  | owner => 4
  | admin => 3
  | moderator => 2
  | member => 1

/-- `CanManageMembers`. -/
def Role.canManageMembers : Role → Bool
  | owner | admin | moderator => true
  | member => false

/-- `CanManageInvites`. -/
def Role.canManageInvites : Role → Bool
  | owner | admin => true
  | moderator | member => false

namespace Store

/-- Create an account with its first device, as `CreateOwner` and `RegisterWithInvite` do. -/
def registerAccount (s : Store) (now : Time) (accountID : AccountID) (role : Role)
    (deviceID : DeviceID) : Except StoreError (Unit × Store) :=
  match s.accounts.insert? ⟨accountID, role, .active, none⟩,
      s.devices.insert? ⟨deviceID, accountID, now, none⟩ with
  | some accounts, some devices => .ok ((), { s with accounts, devices })
  | _, _ => .error .uniqueConstraint

def enrollDevice (s : Store) (now : Time) (accountID : AccountID) (deviceID : DeviceID) :
    Except StoreError (Unit × Store) := do
  require (∃ a ∈ s.accounts, a.id = accountID) StoreError.foreignKeyConstraint
  match s.devices.insert? ⟨deviceID, accountID, now, none⟩ with
  | some devices => pure ((), { s with devices })
  | none => .error .uniqueConstraint

/-- `revoked_at = COALESCE(revoked_at, now)` on the devices that `p` selects. -/
def markRevoked (s : Store) (p : Device → Prop) [DecidablePred p] (now : Time) : Store :=
  { s with devices := s.devices.update p fun d => { d with revokedAt := d.revokedAt.or (some now) } }

/-- Queue a revoked device's removals and stop other removals waiting for it. -/
def retireMLSDevice (s : Store) (accountID : AccountID) (deviceID : DeviceID) (now : Time) : Store :=
  (s.queueMLSRevocations accountID deviceID now).releaseMLSRevocationConfirmations deviceID now

/-- Every step of a device revocation. Without an event type the device is only marked: its MLS
removals are not queued and the confirmations it owes are not released. -/
def revokeDeviceTx (s : Store) (accountID : AccountID) (deviceID : DeviceID)
    (eventType : Option EventType) (now : Time) : Except StoreError (EventID × Store) := do
  require (∃ d ∈ s.devices, d.id = deviceID ∧ d.accountID = accountID) StoreError.notFound
  let s := s.markRevoked (fun d => d.id = deviceID ∧ d.accountID = accountID) now
  match eventType with
  | none => pure (0, s)
  | some eventType =>
    let (eventID, s) := s.insertSyncEvent eventType (some accountID) none (.device deviceID) now
    pure (eventID, s.retireMLSDevice accountID deviceID now)

/-- Revoke one of the account's devices without recording an event. -/
def revokeDevice (s : Store) (now : Time) (accountID : AccountID) (deviceID : DeviceID) :
    Except StoreError (EventID × Store) :=
  s.revokeDeviceTx accountID deviceID none now

def revokeDeviceWithSyncEvent (s : Store) (now : Time) (accountID : AccountID) (deviceID : DeviceID) :
    Except StoreError (EventID × Store) :=
  s.revokeDeviceTx accountID deviceID (some .deviceRevoked) now

/-- The ids of the account's devices that `p` selects, in order. -/
def accountDeviceIDs (s : Store) (accountID : AccountID) (p : Device → Prop) [DecidablePred p] :
    List DeviceID :=
  ((s.devices.rows.filter fun d => d.accountID = accountID ∧ p d).map (·.id)).insertionSort (· ≤ ·)

def revokeEach (s : Store) (accountID : AccountID) (now : Time) :
    List DeviceID → Except StoreError Store
  | [] => .ok s
  | deviceID :: rest => do
    let (_, s) ← s.revokeDeviceTx accountID deviceID (some .deviceRevoked) now
    s.revokeEach accountID now rest

/-- The device part of a completed account recovery: every active device is marked revoked, then
revoked with its removals queued, and only then the new device is added. -/
def completeRecovery (s : Store) (now : Time) (accountID : AccountID) (newDeviceID : DeviceID) :
    Except StoreError (EventID × Store) := do
  require (∃ a ∈ s.accounts, a.id = accountID ∧ a.status = .active ∧ a.deletedAt = none)
    StoreError.notFound
  let oldDevices := s.accountDeviceIDs accountID (·.revokedAt = none)
  let s := s.markRevoked (fun d => d.accountID = accountID ∧ d.revokedAt = none) now
  let s ← s.revokeEach accountID now oldDevices
  match s.devices.insert? ⟨newDeviceID, accountID, now, none⟩ with
  | none => .error .uniqueConstraint
  | some devices =>
    pure ({ s with devices }.insertSyncEvent .accountRecovered (some accountID) none
      (.device newDeviceID) now)

/-- Queue and release for each listed device in turn. -/
def retireEach (s : Store) (accountID : AccountID) (now : Time) : List DeviceID → Store
  | [] => s
  | deviceID :: rest => (s.retireMLSDevice accountID deviceID now).retireEach accountID now rest

/-- `INSERT INTO blob_deletion_queue ... ON CONFLICT DO NOTHING`. -/
def enqueueBlobDeletion (s : Store) (storageKey : String) : Store :=
  if storageKey ∈ s.blobDeletions then s
  else { s with blobDeletions := s.blobDeletions ++ [storageKey] }

/-- Scrub the account: its devices are revoked and retired, then its memberships, blocks and
attachments go and the account is marked deleted. Devices, conversations and messages stay. -/
def deleteAccountData (s : Store) (now : Time) (accountID : AccountID) :
    Except StoreError (List String × Store) := do
  let some account := s.accounts.find? accountID | .error .notFound
  require (account.deletedAt = none) StoreError.notFound
  require (account.role = .owner →
    1 < (s.accounts.rows.filter fun a => a.role = .owner ∧ a.deletedAt = none).length)
    StoreError.lastOwner
  let storageKeys := (s.attachments.rows.filter (·.ownerAccountID = accountID)).map (·.storageKey)
  let deviceIDs := s.accountDeviceIDs accountID fun _ => True
  let s := storageKeys.foldl enqueueBlobDeletion s
  let s := s.markRevoked (·.accountID = accountID) now
  let s := s.retireEach accountID now deviceIDs
  pure (storageKeys,
    { s with
      blocks := s.blocks.delete (·.blockerAccountID = accountID)
      memberships := s.memberships.delete (·.accountID = accountID)
      -- Deleting an attachment takes its message link with it.
      messageAttachments := s.messageAttachments.delete fun link =>
        ∃ a ∈ s.attachments, a.id = link.attachmentID ∧ a.ownerAccountID = accountID
      attachments := s.attachments.delete (·.ownerAccountID = accountID)
      accounts := s.accounts.update (·.id = accountID) fun a =>
        { a with status := .deleted, deletedAt := a.deletedAt.or (some now) } })

/-- Suspend an account or make it active again. -/
def setAccountStatus (s : Store) (actorAccountID targetAccountID : AccountID) (status : AccountStatus) :
    Except StoreError (Unit × Store) := do
  require (status = .active ∨ status = .suspended) StoreError.invalidInput
  require (actorAccountID ≠ targetAccountID) StoreError.forbidden
  let some actor := s.accounts.find? actorAccountID | .error .forbidden
  require (actor.status = .active ∧ actor.deletedAt = none) StoreError.forbidden
  let some target := s.accounts.find? targetAccountID | .error .notFound
  require (target.deletedAt = none) StoreError.notFound
  require (actor.role.canManageInvites ∧ target.role.rank < actor.role.rank) StoreError.forbidden
  pure ((), { s with accounts := s.accounts.update (·.id = targetAccountID) fun a => { a with status } })

def blockAccount (s : Store) (blockerAccountID blockedAccountID : AccountID) :
    Except StoreError (Unit × Store) := do
  require (blockerAccountID ≠ blockedAccountID ∧ validID "acct" blockedAccountID) StoreError.invalidInput
  require (∃ a ∈ s.accounts, a.id = blockedAccountID ∧ a.deletedAt = none) StoreError.notFound
  pure ((), { s with blocks := s.blocks.insertOrIgnore ⟨blockerAccountID, blockedAccountID⟩ })

def unblockAccount (s : Store) (blockerAccountID blockedAccountID : AccountID) :
    Except StoreError (Unit × Store) := do
  require (∃ b ∈ s.blocks, b.blockerAccountID = blockerAccountID ∧ b.blockedAccountID = blockedAccountID)
    StoreError.notFound
  pure ((), { s with blocks := s.blocks.delete fun b =>
    b.blockerAccountID = blockerAccountID ∧ b.blockedAccountID = blockedAccountID })

end Store
end Veritra.Storage
