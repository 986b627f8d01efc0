import Veritra.Model.Storage.Database

/-! # Blobs, their usage counters and the deletion queue

Attachments, backups, upload intents and active history transfers each hold one blob of an account.
The triggers of migrations 0031 and 0039 keep the usage counters next to the rows, and the quota check
reads the counters. A row that goes leaves the key of its blob in the deletion queue.
-/

namespace Veritra.Storage

open Relational Machine

/-- The transfer after it left the active state: its content is cleared. -/
def HistoryTransfer.retire (transfer : HistoryTransfer) (state : TransferState) (now : Time) :
    HistoryTransfer :=
  { transfer with
    state, terminalAt := some now, handoff := none, storageKey := none, chunkDigests := none }

/-- `recipient_device_id`, which a reservation fills. -/
def DeviceLink.recipientDeviceID (link : DeviceLink) : Option DeviceID :=
  link.reservation.map (·.recipientDeviceID)

/-- The account's device is one of the two ends of the link. -/
def DeviceLink.ofDevice (link : DeviceLink) (accountID : AccountID) (deviceID : DeviceID) : Prop :=
  link.accountID = accountID ∧ (link.sourceDeviceID = deviceID ∨ link.recipientDeviceID = some deviceID)
  deriving Decidable

namespace BlobTables

/-- The insert triggers: the account's counter starts at the size or grows by it. -/
def addUsage (b : BlobTables) (accountID : AccountID) (sizeBytes : ℤ) : BlobTables :=
  { b with
    accountUsage := b.accountUsage.upsert ⟨accountID, sizeBytes⟩
      fun usage => { usage with sizeBytes := usage.sizeBytes + sizeBytes }
    instanceUsage := b.instanceUsage + sizeBytes }

/-- The delete triggers. -/
def dropUsage (b : BlobTables) (accountID : AccountID) (sizeBytes : ℤ) : BlobTables :=
  { b with
    accountUsage := b.accountUsage.update (·.accountID = accountID)
      fun usage => { usage with sizeBytes := usage.sizeBytes - sizeBytes }
    instanceUsage := b.instanceUsage - sizeBytes }

def usageOf (b : BlobTables) (accountID : AccountID) : ℤ :=
  ((b.accountUsage.find? accountID).map (·.sizeBytes)).getD 0

end BlobTables

namespace Database

/-- Replace the message store. The attachment triggers run for the rows that come and go. -/
def withStore (db : Database) (store : Store) : Database :=
  let removed := db.store.attachments.rows.filter (· ∉ store.attachments.rows)
  let added := store.attachments.rows.filter (· ∉ db.store.attachments.rows)
  let blobs := removed.foldl (fun b a => b.dropUsage a.ownerAccountID a.sizeBytes) db.blobs
  { db with
    store
    blobs := added.foldl (fun b a => b.addUsage a.ownerAccountID a.sizeBytes) blobs }

def countBlobs (db : Database) (accountID : AccountID) : ℕ :=
  (db.store.attachments.rows.filter (·.ownerAccountID = accountID)).length +
  (db.blobs.backups.rows.filter (·.accountID = accountID)).length +
  (db.blobs.transfers.rows.filter fun t => t.accountID = accountID ∧ t.state = .active).length +
  (db.blobs.intents.rows.filter (·.accountID = accountID)).length

/-- Admit one more blob of the account. -/
def enforceBlobQuota (config : Config) (db : Database) (accountID : AccountID) (incoming : ℤ) :
    Except StoreError Unit := do
  require (¬ (incoming < 0 ∨ db.blobs.usageOf accountID > config.accountStorageBytes - incoming ∨
    db.blobs.instanceUsage > config.instanceStorageBytes - incoming)) StoreError.storageQuota
  require (db.countBlobs accountID < config.accountBlobs) StoreError.storageQuota

/-- Record an uploaded attachment, if the storage quota admits it. -/
def createAttachmentEnvelope (config : Config) (db : Database) (now : Time)
    (attachment : AttachmentEnvelope) : Except StoreError Database := do
  require (∀ conversationID ∈ attachment.conversationID,
    db.store.isConversationMember conversationID attachment.ownerAccountID) StoreError.notMember
  enforceBlobQuota config db attachment.ownerAccountID attachment.sizeBytes
  let (_, store) ← db.store.createAttachmentEnvelope now attachment
  pure (db.withStore store)

def recoveryCapabilityLifetime : Time := 15 * minute

def previousCounter (db : Database) (accountID : AccountID) (deviceID : Option DeviceID) : Option ℤ :=
  ((db.blobs.backups.rows.filter fun b => b.accountID = accountID ∧ b.deviceID = deviceID).filterMap
    (·.keyDerivationMetadata.stateCounter)).max?

/-- Record a backup. Its counter must be positive and above the earlier ones of the device, and it
takes over the device's recovery capability. -/
def createBackupBlob (config : Config) (db : Database) (now : Time) (id : String)
    (accountID : AccountID) (deviceID : DeviceID) (storageKey : StorageKey) (ciphertextSHA256 : String)
    (sizeBytes : ℤ) (chunkDigests : Option Bytes) (metadata : KeyDerivationMetadata)
    (recoveryTokenHash : Bytes) : Except StoreError Database := do
  enforceBlobQuota config db accountID sizeBytes
  require (recoveryTokenHash.length = 32) StoreError.invalidInput
  let some stateCounter := metadata.stateCounter | .error .invalidInput
  require (0 < stateCounter) StoreError.invalidInput
  let storedDeviceID := nullableEmptyString deviceID
  require (∀ previous ∈ db.previousCounter accountID storedDeviceID, previous < stateCounter)
    StoreError.invalidInput
  require (∃ a ∈ db.store.accounts, a.id = accountID) StoreError.foreignKeyConstraint
  require (∀ d ∈ storedDeviceID, ∃ device ∈ db.store.devices, device.id = d)
    StoreError.foreignKeyConstraint
  let backups := db.blobs.backups.update
    (fun b => b.accountID = accountID ∧ b.deviceID = storedDeviceID)
    fun b => { b with
      recoveryTokenHash := none, recoveryExpiresAt := none, recoveryNextOffset := 0
      recoveryLeaseID := none, recoveryLeaseExpiresAt := none }
  require (∀ b ∈ backups, b.storageKey ≠ storageKey ∧ b.recoveryTokenHash ≠ some recoveryTokenHash)
    StoreError.uniqueConstraint
  match backups.insert?
      { id, accountID, deviceID := storedDeviceID, storageKey, ciphertextSHA256, sizeBytes,
        keyDerivationMetadata := metadata, createdAt := now, recoveryTokenHash := some recoveryTokenHash,
        recoveryExpiresAt := some (now + recoveryCapabilityLifetime), recoveryNextOffset := 0
        recoveryLeaseID := none, recoveryLeaseExpiresAt := none, chunkDigests } with
  | none => .error .uniqueConstraint
  | some backups => pure { db with blobs := { db.blobs with backups }.addUsage accountID sizeBytes }

/-- Delete one of the account's backups and queue its blob. -/
def deleteBackup (db : Database) (id : String) (accountID : AccountID) : Except StoreError Database := do
  let some backup := db.blobs.backups.find? id | .error .notFound
  require (backup.accountID = accountID) StoreError.notFound
  pure { db with
    store := db.store.enqueueBlobDeletion backup.storageKey
    blobs := { db.blobs with backups := db.blobs.backups.delete (·.id = id) }.dropUsage accountID
      backup.sizeBytes }

/-- Delete every backup of the account. The caller queues their keys. -/
def dropBackups (b : BlobTables) (accountID : AccountID) : BlobTables :=
  (b.backups.rows.filter (·.accountID = accountID)).foldl
    (fun b backup => b.dropUsage backup.accountID backup.sizeBytes)
    { b with backups := b.backups.delete (·.accountID = accountID) }

/-- Queue the blobs of the intents that `p` selects and delete them. -/
def retireHistoryIntents (db : Database) (p : UploadIntent → Prop) [DecidablePred p] : Database :=
  let retired := db.blobs.intents.rows.filter p
  { db with
    store := (retired.map (·.storageKey)).foldl Store.enqueueBlobDeletion db.store
    blobs := retired.foldl (fun b intent => b.dropUsage intent.accountID intent.sizeBytes)
      { db.blobs with intents := db.blobs.intents.delete p } }

/-- Queue the blobs of the active transfers that `p` selects and end them in the given state. -/
def retireHistoryTransfers (db : Database) (p : HistoryTransfer → Prop) [DecidablePred p]
    (state : TransferState) (now : Time) : Database :=
  let retired := db.blobs.transfers.rows.filter fun t => t.state = .active ∧ p t
  { db with
    store := (retired.filterMap (·.storageKey)).foldl Store.enqueueBlobDeletion db.store
    blobs := retired.foldl (fun b transfer => b.dropUsage transfer.accountID transfer.sizeBytes)
      { db.blobs with
        transfers := db.blobs.transfers.update (fun t => t.state = .active ∧ p t) (·.retire state now) } }

/-- Retire the history of the links that `p` selects. -/
def retireHistoryForLinks (db : Database) (p : DeviceLink → Prop) [DecidablePred p] (now : Time) :
    Database :=
  (db.retireHistoryIntents fun intent => ∃ link ∈ db.links, link.id = intent.linkID ∧ p link).retireHistoryTransfers
    (fun transfer => ∃ link ∈ db.links, link.id = transfer.linkID ∧ p link) .cancelled now

/-- Delete the links that `p` selects. Their intents and transfers go with them, and the delete
triggers count those that still held a blob. -/
def deleteDeviceLinks (db : Database) (p : DeviceLink → Prop) [DecidablePred p] : Database :=
  let deleted (linkID : LinkID) : Prop := ∃ link ∈ db.links, link.id = linkID ∧ p link
  let intents := db.blobs.intents.rows.filter fun intent => deleted intent.linkID
  let transfers := db.blobs.transfers.rows.filter fun t => deleted t.linkID ∧ t.state = .active
  let blobs := intents.foldl (fun b intent => b.dropUsage intent.accountID intent.sizeBytes)
    { db.blobs with
      intents := db.blobs.intents.delete fun intent => deleted intent.linkID
      transfers := db.blobs.transfers.delete fun transfer => deleted transfer.linkID }
  { db with
    links := db.links.delete p
    blobs := transfers.foldl (fun b transfer => b.dropUsage transfer.accountID transfer.sizeBytes) blobs }

/-- `retireDeviceLinksV3ForDevice`. -/
def retireDeviceLinksForDevice (db : Database) (accountID : AccountID) (deviceID : DeviceID)
    (now : Time) : Database :=
  (db.retireHistoryForLinks (·.ofDevice accountID deviceID) now).deleteDeviceLinks
    (·.ofDevice accountID deviceID)

def recoveryLeaseLifetime : Time := 2 * minute

end Database

/-- The deadline of the row's transfer lease is ahead. -/
def BackupBlob.leaseRuns (b : BackupBlob) (now : Time) : Prop :=
  ∃ expiresAt ∈ b.recoveryLeaseExpiresAt, now < expiresAt
  deriving Decidable

/-- The row is still as it was read, and no lease on it runs. -/
def BackupBlob.freeFor (backup : BackupBlob) (recoveryTokenHash : Bytes) (now : Time) (b : BackupBlob) : Prop :=
  b.id = backup.id ∧ b.recoveryTokenHash = some recoveryTokenHash ∧
    b.recoveryNextOffset = backup.recoveryNextOffset ∧
    (b.recoveryLeaseID = none ∨ ∃ expiresAt ∈ b.recoveryLeaseExpiresAt, expiresAt ≤ now)
  deriving Decidable

/-- The row is under the lease, and the lease runs. -/
def BackupBlob.leasedUnder (leaseID : String) (now : Time) (b : BackupBlob) : Prop :=
  b.recoveryLeaseID = some leaseID ∧ b.leaseRuns now
  deriving Decidable

/-- The row after bytes up to `reached` were handed off. -/
def BackupBlob.advanceTo (reached : ℤ) (whole : Bool) (b : BackupBlob) : BackupBlob :=
  { b with
    recoveryTokenHash := if whole ∧ reached = b.sizeBytes then none else b.recoveryTokenHash
    recoveryNextOffset := max b.recoveryNextOffset reached
    recoveryLeaseID := none, recoveryLeaseExpiresAt := none }

structure RecoveryTransfer where
  backup : BackupBlob
  leaseID : String
  startOffset : ℤ
  deriving DecidableEq, Repr

namespace Database

/-- `UPDATE backup_blobs`, refused unless it changes exactly one row. -/
def updateBackup (db : Database) (p : BackupBlob → Prop) [DecidablePred p] (change : BackupBlob → BackupBlob)
    (keeps : ∀ b, (change b).id = b.id := by intro _; rfl) : Except StoreError Database := do
  require ((db.blobs.backups.rows.filter fun b => p b).length = 1) StoreError.recoveryBusy
  pure { db with blobs := { db.blobs with backups := db.blobs.backups.update p change keeps } }

/-- `BeginRecoveryTransfer`: lease the backup of the capability, from an offset up to the recorded one. -/
def beginRecoveryTransfer (db : Database) (now : Time) (leaseID : String) (recoveryTokenHash : Bytes)
    (start : ℤ) : Except StoreError (RecoveryTransfer × Database) := do
  require (recoveryTokenHash.length = 32 ∧ 0 ≤ start) StoreError.recoveryRange
  let some backup := db.blobs.backups.rows.find? (·.recoveryTokenHash = some recoveryTokenHash)
    | .error .notFound
  require (∃ expiresAt ∈ backup.recoveryExpiresAt, now < expiresAt) StoreError.notFound
  require (¬ (backup.recoveryLeaseID.isSome ∧ backup.leaseRuns now)) StoreError.recoveryBusy
  require (start ≤ backup.recoveryNextOffset) StoreError.recoveryRange
  let next ← db.updateBackup (backup.freeFor recoveryTokenHash now) fun b => { b with
    recoveryLeaseID := some leaseID, recoveryLeaseExpiresAt := some (now + recoveryLeaseLifetime) }
  pure (⟨backup, leaseID, start⟩, next)

/-- `RenewRecoveryTransfer`. A lapsed lease is not revived. Two rows never share a lease id, which is
random. -/
def renewRecoveryTransfer (db : Database) (now : Time) (leaseID : String) : Except StoreError Database := do
  require (leaseID ≠ "") StoreError.invalidInput
  db.updateBackup (BackupBlob.leasedUnder leaseID now) fun b =>
    { b with recoveryLeaseExpiresAt := some (now + recoveryLeaseLifetime) }

/-- The backup under the lease, unless the transfer began past its offset. -/
def leasedBackup? (db : Database) (now : Time) (leaseID : String) (startOffset : ℤ) : Option BackupBlob :=
  db.blobs.backups.rows.find? fun b => b.leasedUnder leaseID now ∧ startOffset ≤ b.recoveryNextOffset

/-- `CompleteRecoveryTransfer`: record what the transfer handed off. A transfer that handed off all it was
to, up to the end of the blob, consumes the capability. -/
def completeRecoveryTransfer (db : Database) (now : Time) (leaseID : String)
    (startOffset bytesWritten expected : ℤ) : Except StoreError Database := do
  require (leaseID ≠ "" ∧ 0 ≤ startOffset ∧ 0 ≤ bytesWritten ∧ 0 ≤ expected ∧ bytesWritten ≤ expected)
    StoreError.invalidInput
  let some backup := db.leasedBackup? now leaseID startOffset | .error .recoveryBusy
  require (backup.recoveryNextOffset ≤ backup.sizeBytes ∧ startOffset ≤ backup.sizeBytes ∧
    bytesWritten ≤ backup.sizeBytes - startOffset) StoreError.invalidInput
  db.updateBackup
    (fun b => b.leasedUnder leaseID now ∧ b.recoveryNextOffset = backup.recoveryNextOffset)
    (BackupBlob.advanceTo (startOffset + bytesWritten) (bytesWritten = expected))

/-- Queue a blob whose row was not committed. -/
def queueBlobDeletion (db : Database) (storageKey : StorageKey) : Database :=
  { db with store := db.store.enqueueBlobDeletion storageKey }

def completeBlobDeletion (db : Database) (storageKey : StorageKey) : Database :=
  { db with
    store := { db.store with blobDeletions := db.store.blobDeletions.filter (· ≠ storageKey) } }

/-- Fill in the chunk digests of a blob that was stored without them. -/
def recordBlobChunkDigests (db : Database) (storageKey : StorageKey) (ciphertextSHA256 : String)
    (sizeBytes : ℤ) (chunkDigests : Bytes) : Except StoreError Database := do
  require (storageKey ≠ "" ∧ chunkDigests ≠ []) StoreError.invalidInput
  pure { db with
    blobs := { db.blobs with
      backups := db.blobs.backups.update
        (fun b => b.storageKey = storageKey ∧ b.ciphertextSHA256 = ciphertextSHA256 ∧
          b.sizeBytes = sizeBytes ∧ b.chunkDigests = none)
        fun b => { b with chunkDigests := some chunkDigests }
      transfers := db.blobs.transfers.update
        (fun t => t.storageKey = some storageKey ∧ t.ciphertextSHA256 = ciphertextSHA256 ∧
          t.sizeBytes = sizeBytes ∧ t.chunkDigests = none)
        fun t => { t with chunkDigests := some chunkDigests } } }

end Database
end Veritra.Storage
