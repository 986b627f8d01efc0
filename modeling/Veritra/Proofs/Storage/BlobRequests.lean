import Veritra.Proofs.Storage.HistoryRequests

/-! # Committed requests about blobs

What a committed upload or deletion has checked, and the database it leaves. None of them looks at
sessions, key packages, recoveries or links.
-/

namespace Veritra.Storage

open Relational Machine

namespace Database

variable {id leaseID : String} {accountID : AccountID} {recoveryTokenHash : Bytes}
  {start startOffset bytesWritten expected : ℤ} {config : Config} {db next : Database} {now : Time}

theorem createAttachmentEnvelope_ok {attachment : AttachmentEnvelope}
    (ok : createAttachmentEnvelope config db now attachment = .ok next) :
    enforceBlobQuota config db attachment.ownerAccountID attachment.sizeBytes = .ok () ∧
      (∀ a ∈ db.store.attachments, a.storageKey ≠ attachment.storageKey) ∧ ∃ attachments,
        db.store.attachments.insert? { attachment with createdAt := now } = some attachments ∧
        next = db.withStore { db.store with attachments } := by
  have ok := of_require ok
  obtain ⟨⟨⟩, admitted, ok⟩ := bind_eq_ok.mp ok
  obtain ⟨⟨⟨⟩, store⟩, stored, ok⟩ := bind_eq_ok.mp ok
  cases ok
  obtain ⟨unused, attachments, inserted, rfl⟩ := Store.createAttachmentEnvelope_ok stored
  exact ⟨admitted, unused, attachments, inserted, rfl⟩

/-- The backups whose recovery capability the new backup of the device takes over. -/
def takenOver (db : Database) (accountID : AccountID) (deviceID : DeviceID) :
    Table BackupBlob BackupBlob.id :=
  db.blobs.backups.update (fun b => b.accountID = accountID ∧ b.deviceID = nullableEmptyString deviceID)
    (fun b => { b with
      recoveryTokenHash := none, recoveryExpiresAt := none, recoveryNextOffset := 0
      recoveryLeaseID := none, recoveryLeaseExpiresAt := none }) (kept BackupBlob.id)

/-- A committed backup. -/
structure BackupCreated (config : Config) (db : Database) (id : String) (accountID : AccountID)
    (deviceID : DeviceID) (backup : BackupBlob) (backups : Table BackupBlob BackupBlob.id) : Prop where
  named : backup.id = id
  token : ∃ recoveryTokenHash, backup.recoveryTokenHash = some recoveryTokenHash
  offset : backup.recoveryNextOffset = 0
  unleased : backup.recoveryLeaseID = none ∧ backup.recoveryLeaseExpiresAt = none
  admitted : enforceBlobQuota config db accountID backup.sizeBytes = .ok ()
  account : backup.accountID = accountID
  inserted : (db.takenOver accountID deviceID).insert? backup = some backups

theorem createBackupBlob_ok {deviceID : DeviceID} {storageKey : StorageKey}
    {ciphertextSHA256 : String} {sizeBytes : ℤ} {chunkDigests : Option Bytes}
    {metadata : KeyDerivationMetadata}
    (ok : createBackupBlob config db now id accountID deviceID storageKey ciphertextSHA256 sizeBytes
      chunkDigests metadata recoveryTokenHash = .ok next) :
    ∃ backup backups, BackupCreated config db id accountID deviceID backup backups ∧
      backup.storageKey = storageKey ∧ backup.sizeBytes = sizeBytes ∧
      next = { db with blobs := { db.blobs with backups }.addUsage accountID sizeBytes } := by
  obtain ⟨⟨⟩, admitted, ok⟩ := bind_eq_ok.mp ok
  have ok := of_require ok
  split at ok
  · have ok := of_require ok
    have ok := of_require ok
    have ok := of_require ok
    have ok := of_require ok
    have ok := of_require ok
    split at ok
    · cases ok
    · next backups inserted =>
      cases ok
      exact ⟨_, backups, ⟨rfl, ⟨_, rfl⟩, rfl, ⟨rfl, rfl⟩, admitted, rfl, inserted⟩, rfl, rfl, rfl⟩
  · cases ok

theorem deleteBackup_ok (ok : db.deleteBackup id accountID = .ok next) :
    ∃ backup ∈ db.blobs.backups, backup.id = id ∧ backup.accountID = accountID ∧ next = { db with
        store := db.store.enqueueBlobDeletion backup.storageKey
        blobs := { db.blobs with backups := db.blobs.backups.delete (·.id = id) }.dropUsage accountID
          backup.sizeBytes } := by
  unfold deleteBackup at ok
  split at ok
  · next backup found =>
    obtain ⟨owned, ok⟩ := require_ok.mp ok
    cases ok
    obtain ⟨stored, named⟩ := Table.find?_eq_some.mp found
    exact ⟨backup, stored, named, owned, rfl⟩
  · cases ok

/-- One row matched, and it was updated. -/
theorem updateBackup_ok {p : BackupBlob → Prop} [DecidablePred p] {change : BackupBlob → BackupBlob}
    {keeps : ∀ b, (change b).id = b.id} (ok : db.updateBackup p change keeps = .ok next) :
    (∃ b ∈ db.blobs.backups, p b ∧ ∀ other ∈ db.blobs.backups, p other → other = b) ∧
      next = { db with blobs := { db.blobs with backups := db.blobs.backups.update p change keeps } } := by
  obtain ⟨one, ok⟩ := require_ok.mp ok
  cases ok
  obtain ⟨b, alone⟩ := List.length_eq_one_iff.mp one
  have matched (other : BackupBlob) : other ∈ db.blobs.backups ∧ p other ↔ other = b := by
    rw [← List.mem_singleton, ← alone, List.mem_filter, decide_eq_true_iff]
    exact Iff.rfl
  obtain ⟨stored, taken⟩ := (matched b).mpr rfl
  exact ⟨⟨b, stored, taken, fun other mem holds => (matched other).mp ⟨mem, holds⟩⟩, rfl⟩

/-- Backups were updated in columns that do not say which blob they hold. -/
inductive BackupsMarked (db : Database) : Database → Prop
  | marked (p : BackupBlob → Prop) [DecidablePred p] (change : BackupBlob → BackupBlob)
      (keeps : ∀ b, (change b).id = b.id)
      (same : ∀ b, (change b).storageKey = b.storageKey ∧ (change b).accountID = b.accountID ∧
        (change b).sizeBytes = b.sizeBytes) :
      BackupsMarked db
        { db with blobs := { db.blobs with backups := db.blobs.backups.update p change keeps } }

theorem beginRecoveryTransfer_ok {transfer : RecoveryTransfer}
    (ok : db.beginRecoveryTransfer now leaseID recoveryTokenHash start = .ok (transfer, next)) :
    ∃ backup ∈ db.blobs.backups, start ≤ backup.recoveryNextOffset ∧
      ¬ (backup.recoveryLeaseID.isSome ∧ backup.leaseRuns now) ∧
      db.updateBackup (backup.freeFor recoveryTokenHash now) (fun b => { b with
        recoveryLeaseID := some leaseID
        recoveryLeaseExpiresAt := some (now + recoveryLeaseLifetime) }) (fun _ => rfl) = .ok next := by
  have ok := of_require ok
  split at ok
  · next backup found =>
    have ok := of_require ok
    obtain ⟨free, ok⟩ := require_ok.mp ok
    obtain ⟨within, ok⟩ := require_ok.mp ok
    obtain ⟨next, updated, ok⟩ := bind_eq_ok.mp ok
    cases ok
    exact ⟨backup, List.mem_of_find?_eq_some found, within, free, updated⟩
  · cases ok

theorem completeRecoveryTransfer_ok
    (ok : db.completeRecoveryTransfer now leaseID startOffset bytesWritten expected = .ok next) :
    0 ≤ startOffset ∧ 0 ≤ bytesWritten ∧ bytesWritten ≤ expected ∧
    ∃ backup, db.leasedBackup? now leaseID startOffset = some backup ∧
      startOffset + bytesWritten ≤ backup.sizeBytes ∧
      db.updateBackup (fun b => b.leasedUnder leaseID now ∧ b.recoveryNextOffset = backup.recoveryNextOffset)
        (BackupBlob.advanceTo (startOffset + bytesWritten) (bytesWritten = expected)) (fun _ => rfl) = .ok next := by
  obtain ⟨⟨-, start, written, -, within⟩, ok⟩ := require_ok.mp ok
  split at ok
  · next backup found =>
    obtain ⟨⟨-, -, fits⟩, ok⟩ := require_ok.mp ok
    exact ⟨start, written, within, backup, found, by omega, ok⟩
  · cases ok

theorem beginRecoveryTransfer_marks
    (served : (db.beginRecoveryTransfer now leaseID recoveryTokenHash start).map (·.2) = .ok next) :
    BackupsMarked db next := by
  obtain ⟨⟨transfer, _⟩, began, rfl⟩ := map_eq_ok.mp served
  obtain ⟨_, -, -, -, updated⟩ := beginRecoveryTransfer_ok began
  obtain ⟨-, rfl⟩ := updateBackup_ok updated
  exact .marked _ _ _ fun _ => ⟨rfl, rfl, rfl⟩

theorem renewRecoveryTransfer_marks (served : db.renewRecoveryTransfer now leaseID = .ok next) :
    BackupsMarked db next := by
  have updated := of_require served
  obtain ⟨-, rfl⟩ := updateBackup_ok updated
  exact .marked _ _ _ fun _ => ⟨rfl, rfl, rfl⟩

theorem completeRecoveryTransfer_marks
    (served : db.completeRecoveryTransfer now leaseID startOffset bytesWritten expected = .ok next) :
    BackupsMarked db next := by
  obtain ⟨-, -, -, _, -, -, updated⟩ := completeRecoveryTransfer_ok served
  obtain ⟨-, rfl⟩ := updateBackup_ok updated
  exact .marked _ _ _ fun _ => ⟨rfl, rfl, rfl⟩

theorem enqueueEach_devices (s : Store) (storageKeys : List StorageKey) :
    (storageKeys.foldl Store.enqueueBlobDeletion s).devices = s.devices := by
  obtain ⟨_, frame⟩ := s.enqueueEach_frame storageKeys
  rw [frame]

/-- Only the attachments, the deletion queue and the blob tables may differ. -/
structure BlobsOnly (db next : Database) : Prop where
  devices : next.store.devices = db.store.devices
  accounts : next.accounts = db.accounts
  sessions : next.sessions = db.sessions
  keyPackages : next.keyPackages = db.keyPackages
  recoveries : next.recoveries = db.recoveries
  links : next.links = db.links

theorem blobStep_frame {request : BlobRequest} (served : blobStep config db now request = .ok next) :
    BlobsOnly db next := by
  cases request <;> simp only [blobStep] at served
  case createAttachmentEnvelope attachment =>
    obtain ⟨-, -, _, -, rfl⟩ := createAttachmentEnvelope_ok served
    exact ⟨rfl, rfl, rfl, rfl, rfl, rfl⟩
  case createBackupBlob =>
    obtain ⟨_, _, -, -, -, rfl⟩ := createBackupBlob_ok served
    exact ⟨rfl, rfl, rfl, rfl, rfl, rfl⟩
  case deleteBackup id accountID =>
    obtain ⟨backup, -, -, -, rfl⟩ := deleteBackup_ok served
    exact ⟨enqueueEach_devices db.store [backup.storageKey], rfl, rfl, rfl, rfl, rfl⟩
  case queueBlobDeletion storageKey =>
    cases served
    exact ⟨enqueueEach_devices db.store [storageKey], rfl, rfl, rfl, rfl, rfl⟩
  case completeBlobDeletion storageKey =>
    cases served
    exact ⟨rfl, rfl, rfl, rfl, rfl, rfl⟩
  case recordBlobChunkDigests =>
    have served := of_require served
    cases served
    exact ⟨rfl, rfl, rfl, rfl, rfl, rfl⟩
  case beginRecoveryTransfer =>
    obtain ⟨⟩ := beginRecoveryTransfer_marks served
    exact ⟨rfl, rfl, rfl, rfl, rfl, rfl⟩
  case renewRecoveryTransfer =>
    obtain ⟨⟩ := renewRecoveryTransfer_marks served
    exact ⟨rfl, rfl, rfl, rfl, rfl, rfl⟩
  case completeRecoveryTransfer =>
    obtain ⟨⟩ := completeRecoveryTransfer_marks served
    exact ⟨rfl, rfl, rfl, rfl, rfl, rfl⟩

theorem dropDevice_retires (db : Database) (accountID : AccountID) (deviceID : DeviceID) (now : Time) :
    Retires { db with sessions := db.sessions.delete (·.deviceID = some deviceID) }
      (db.dropDevice accountID deviceID now) :=
  retireDeviceLinksForDevice_retires _ accountID deviceID now

end Database
end Veritra.Storage
