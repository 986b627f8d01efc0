import Veritra.Model.Storage.Recovery

/-! # Housekeeping and account deletion

The sweep of operational rows, from `content_store.go`, and what revoking a device, suspending an
account and deleting one do to the tables around the message store.
-/

namespace Veritra.Storage

open Relational Machine

/-- The first 500 of the rows that `p` selects, by time and then by key. -/
def sweepPage {ρ : Type} (rows : List ρ) (p : ρ → Prop) [DecidablePred p] (time : ρ → Time)
    (key : ρ → String) : List ρ :=
  ((rows.filter p).insertionSort fun left right =>
    time left < time right ∨ (time left = time right ∧ key left ≤ key right)).take 500

/-- `COALESCE(transfer_expires_at, expires_at)`. -/
def DeviceLink.deadline (link : DeviceLink) : Time :=
  (link.approval.map (·.transferExpiresAt)).getD link.expiresAt

namespace Database

/-- The links whose deadline passed a retention period ago. -/
def staleLinks (db : Database) (now : Time) : List DeviceLink :=
  sweepPage db.links.rows (fun link => link.deadline + operationalRowRetention < now) (·.deadline) (·.id)

def staleIntents (db : Database) (now : Time) : List UploadIntent :=
  sweepPage db.blobs.intents.rows (·.expiresAt ≤ now) (·.expiresAt) (·.storageKey)

def staleTransfers (db : Database) (now : Time) : List HistoryTransfer :=
  sweepPage db.blobs.transfers.rows (fun t => t.state = .active ∧ t.expiresAt ≤ now) (·.expiresAt)
    (·.linkID)

/-- The key packages that expired, or were claimed a retention period ago. -/
def staleKeyPackages (db : Database) (now : Time) : List KeyPackage :=
  sweepPage db.keyPackages.rows
    (fun p => p.expiresAt < now ∨ ∃ claimedAt ∈ p.claimedAt, claimedAt + operationalRowRetention < now)
    (fun p => p.claimedAt.getD p.expiresAt) (·.id)

def retireStaleHistory (db : Database) (now : Time) : Database :=
  let stale := db.staleLinks now
  let db := db.retireHistoryForLinks (· ∈ stale) now
  let intents := db.staleIntents now
  let db := db.retireHistoryIntents (· ∈ intents)
  let transfers := db.staleTransfers now
  db.retireHistoryTransfers (fun t => t.linkID ∈ transfers.map (·.linkID)) .expired now

/-- Retire ended history, then delete old sessions, links, reservations, recovery requests and key
packages, a page of each. -/
def pruneOperationalRows (db : Database) (now : Time) : Database :=
  let db := db.retireStaleHistory now
  let sessions := sweepPage db.sessions.rows (·.expiresAt ≤ now) (·.expiresAt) (·.tokenHash)
  let reservations := sweepPage db.accounts.reservations.rows
    (fun r => r.expiresAt < now ∨ ∃ consumedAt ∈ r.consumedAt, consumedAt + operationalRowRetention < now)
    (fun r => r.consumedAt.getD r.expiresAt) (·.id)
  let recoveries := sweepPage db.recoveries.rows (fun r => r.expiresAt + operationalRowRetention < now)
    (·.expiresAt) (·.id)
  let keyPackages := db.staleKeyPackages now
  let links := db.staleLinks now
  let db := db.deleteDeviceLinks (· ∈ links)
  { db with
    sessions := db.sessions.delete (· ∈ sessions)
    accounts := { db.accounts with reservations := db.accounts.reservations.delete (· ∈ reservations) }
    recoveries := db.recoveries.delete (· ∈ recoveries)
    keyPackages := db.keyPackages.delete (· ∈ keyPackages) }

/-- The sessions and links of a revoked device go. -/
def dropDevice (db : Database) (accountID : AccountID) (deviceID : DeviceID) (now : Time) : Database :=
  { db with sessions := db.sessions.delete (·.deviceID = some deviceID) }.retireDeviceLinksForDevice
    accountID deviceID now

/-- `'deleted_' || replace(id, '_', '')`. -/
def deletedUsername (accountID : AccountID) : String :=
  "deleted_" ++ String.ofList (accountID.toList.filter (· ≠ '_'))

/-- The account's columns without its name and its password. The new name may be taken. -/
def scrubCredentials (db : Database) (accountID : AccountID) : Except StoreError AccountTables :=
  match (db.accounts.credentials.delete (·.accountID = accountID)).insert?
      ⟨accountID, deletedUsername accountID, none⟩ with
  | none => .error .uniqueConstraint
  | some credentials => .ok
    { db.accounts with
      credentials
      recoveryKeys := db.accounts.recoveryKeys.delete (·.accountID = accountID)
      deviceKeys := db.accounts.deviceKeys.update
        (fun k => ∃ d ∈ db.store.devices, d.id = k.deviceID ∧ d.accountID = accountID)
        fun k => { k with
          name := "Deleted device", keyPackage := [], signingKey := none, authSecretHash := none } }

def backupKeys (db : Database) (accountID : AccountID) : List StorageKey :=
  (db.blobs.backups.rows.filter (·.accountID = accountID)).map (·.storageKey)

/-- What deleting an account does around the message store. -/
def scrubAccount (db : Database) (now : Time) (accountID : AccountID) : Except StoreError Database := do
  let db := (db.retireHistoryForLinks (·.accountID = accountID) now).deleteDeviceLinks
    (·.accountID = accountID)
  let accounts ← db.scrubCredentials accountID
  pure { db with
    store := (db.backupKeys accountID).foldl Store.enqueueBlobDeletion db.store
    accounts
    sessions := db.sessions.delete (·.accountID = accountID)
    keyPackages := db.keyPackages.delete fun p =>
      ∃ d ∈ db.store.devices, d.id = p.deviceID ∧ d.accountID = accountID
    recoveries := db.recoveries.delete (·.accountID = accountID)
    blobs := dropBackups db.blobs accountID }

/-- What a call of the message store does around it. -/
def afterCall (db : Database) : Call → Except StoreError Database
  | .revokeDevice now accountID deviceID | .revokeDeviceWithSyncEvent now accountID deviceID =>
    .ok (db.dropDevice accountID deviceID now)
  | .setAccountStatus _ targetAccountID status =>
    .ok (if status = .suspended then
      { db with sessions := db.sessions.delete (·.accountID = targetAccountID) } else db)
  | .deleteAccountData now accountID => db.scrubAccount now accountID
  | _ => .ok db

end Database
end Veritra.Storage
