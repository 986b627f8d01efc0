import Veritra.Proofs.Storage.HistoryMoves

/-! # What one request does to a recovery capability

A backup carries a capability to recover it: a token hash, the offset up to which it was handed off, and
the lease of the transfer that is under way. A new backup of the device withdraws the capabilities of the
older ones. Otherwise only the requests of recovery transfers change these columns.
-/

namespace Veritra.Storage

open Relational Machine

/-- The columns of a backup that its recovery reads and writes. -/
structure Capability where
  sizeBytes : ℤ
  tokenHash : Option Bytes
  nextOffset : ℤ
  leaseID : Option String
  leaseExpiresAt : Option Time
  deriving DecidableEq, Repr

def BackupBlob.capability (b : BackupBlob) : Capability :=
  ⟨b.sizeBytes, b.recoveryTokenHash, b.recoveryNextOffset, b.recoveryLeaseID, b.recoveryLeaseExpiresAt⟩

def Database.capability? (db : Database) (id : String) : Option Capability :=
  (db.blobs.backups.find? id).map (·.capability)

namespace Capability

def leaseRuns (c : Capability) (now : Time) : Prop := ∃ expiresAt ∈ c.leaseExpiresAt, now < expiresAt
  deriving Decidable

def leasedAt (c : Capability) (leaseID : String) (now : Time) : Capability :=
  { c with leaseID := some leaseID, leaseExpiresAt := some (now + Database.recoveryLeaseLifetime) }

/-- The capability after bytes up to `reached` were handed off. -/
def advanceTo (c : Capability) (reached : ℤ) (whole : Bool) : Capability :=
  { c with
    tokenHash := if whole ∧ reached = c.sizeBytes then none else c.tokenHash
    nextOffset := max c.nextOffset reached, leaseID := none, leaseExpiresAt := none }

/-- The capability after a newer backup took its place. -/
def withdrawn (c : Capability) : Capability := ⟨c.sizeBytes, none, 0, none, none⟩

end Capability

def Request.createdBackup? : Request → Option String
  | .blob _ (.createBackupBlob id ..) => some id
  | _ => none

def Request.range? (db : Database) (id : String) : Request → Option (ℤ × ℤ)
  | .blob now (.completeRecoveryTransfer leaseID startOffset bytesWritten _) =>
    (db.leasedBackup? now leaseID startOffset).bind fun b =>
      if b.id = id then some (startOffset, startOffset + bytesWritten) else none
  | _ => none

/-- The request begins, renews or completes a transfer. -/
def Request.transfers : Request → Bool
  | .blob _ (.beginRecoveryTransfer ..) | .blob _ (.renewRecoveryTransfer _)
  | .blob _ (.completeRecoveryTransfer ..) => true
  | _ => false

/-- The request neither makes the backup nor completes bytes of it. -/
def Request.leavesBackup (request : Request) (db : Database) (id : String) : Prop :=
  request.range? db id = none ∧ request.createdBackup? ≠ some id

/-- What a committed request did to the capability of a backup. -/
inductive CapabilityMove (db next : Database) (id : String) : Request → Prop
  | kept (same : next.capability? id = db.capability? id)
      (leaves : request.leavesBackup db id) : CapabilityMove db next id request
  | created (named : request.createdBackup? = some id) (missing : db.capability? id = none)
      (stored : next.capability? id = some ⟨sizeBytes, some tokenHash, 0, none, none⟩)
      (nonneg : 0 ≤ sizeBytes) : CapabilityMove db next id request
  | withdrawn (found : db.capability? id = some c)
      (stored : next.capability? id = some c.withdrawn) (creates : request.createdBackup?.isSome)
      (leaves : request.leavesBackup db id) : CapabilityMove db next id request
  | gone (gone : next.capability? id = none) (other : ¬ request.transfers)
      (leaves : request.leavesBackup db id) : CapabilityMove db next id request
  | began (found : db.capability? id = some c) (token : c.tokenHash = some tokenHash)
      (free : c.leaseID = none ∨ ∃ expiresAt ∈ c.leaseExpiresAt, expiresAt ≤ now)
      (within : start ≤ c.nextOffset) (stored : next.capability? id = some (c.leasedAt leaseID now)) :
      CapabilityMove db next id (.blob now (.beginRecoveryTransfer leaseID tokenHash start))
  | renewed (found : db.capability? id = some c)
      (held : c.leaseID = some leaseID) (runs : c.leaseRuns now)
      (stored : next.capability? id = some (c.leasedAt leaseID now)) :
      CapabilityMove db next id (.blob now (.renewRecoveryTransfer leaseID))
  | completed (found : db.capability? id = some c) (held : c.leaseID = some leaseID) (runs : c.leaseRuns now)
      (nonneg : 0 ≤ startOffset ∧ 0 ≤ bytesWritten ∧ bytesWritten ≤ expected)
      (within : startOffset ≤ c.nextOffset ∧ startOffset + bytesWritten ≤ c.sizeBytes)
      (range : Request.range? db id (.blob now (.completeRecoveryTransfer leaseID startOffset bytesWritten
        expected)) = some (startOffset, startOffset + bytesWritten))
      (stored : next.capability? id = some (c.advanceTo (startOffset + bytesWritten) (bytesWritten = expected))) :
      CapabilityMove db next id
        (.blob now (.completeRecoveryTransfer leaseID startOffset bytesWritten expected))

open Database

variable {config : Config} {db next : Database} {now : Time} {id : String} {request : Request}
  {p : BackupBlob → Prop}

theorem CapabilityMove.of_same (same : next.blobs.backups = db.blobs.backups)
    (leaves : request.leavesBackup db id) : CapabilityMove db next id request := by
  refine .kept ?_ leaves
  unfold capability?
  rw [same]

theorem CapabilityMove.of_delete [DecidablePred p]
    (deleted : next.blobs.backups = db.blobs.backups.delete p) (other : ¬ request.transfers)
    (leaves : request.leavesBackup db id) : CapabilityMove db next id request := by
  have after : next.blobs.backups.find? id = (db.blobs.backups.find? id).filter fun b => ¬ p b := by
    rw [deleted]
    exact Table.find?_delete
  cases found : db.blobs.backups.find? id with
  | none =>
    refine .kept ?_ leaves
    unfold capability?
    rw [after, found]
    rfl
  | some b =>
    rw [found] at after
    by_cases dropped : p b
    · refine .gone ?_ other leaves
      unfold capability?
      rw [after, Option.filter_some, if_neg (by simpa using dropped)]
      rfl
    · refine .kept ?_ leaves
      unfold capability?
      rw [after, found, Option.filter_some, if_pos (by simpa using dropped)]

theorem capability?_of_updateBackup [DecidablePred p]
    {change : BackupBlob → BackupBlob} {keeps : ∀ b, (change b).id = b.id}
    (updated : db.updateBackup p change keeps = .ok next) (id : String) :
    (∃ b ∈ db.blobs.backups, p b ∧ b.id = id ∧ db.capability? id = some b.capability ∧
      next.capability? id = some (change b).capability ∧ ∀ other ∈ db.blobs.backups, p other → other = b) ∨
    next.capability? id = db.capability? id ∧ ∀ b ∈ db.blobs.backups, p b → b.id ≠ id := by
  obtain ⟨⟨b, stored, taken, alone⟩, rfl⟩ := updateBackup_ok updated
  unfold capability?
  rw [Table.find?_update]
  by_cases here : b.id = id
  · have found : db.blobs.backups.find? id = some b := Table.find?_eq_some.mpr ⟨stored, here⟩
    refine .inl ⟨b, stored, taken, here, ?_, ?_, alone⟩
    · rw [found, Option.map_some]
    · rw [found, Option.map_some, Option.map_some, if_pos taken]
  · refine .inr ⟨?_, fun other mem holds => alone other mem holds ▸ here⟩
    cases found : db.blobs.backups.find? id with
    | none => rfl
    | some other =>
      obtain ⟨mem, named⟩ := Table.find?_eq_some.mp found
      have apart : ¬ p other := fun holds => here (alone other mem holds ▸ named)
      rw [Option.map_some, if_neg apart]

theorem capabilityMove_of_create {accountID : AccountID} {deviceID : DeviceID} {storageKey : StorageKey}
    {ciphertextSHA256 : String} {sizeBytes : ℤ} {chunkDigests : Option Bytes}
    {metadata : KeyDerivationMetadata} {recoveryTokenHash : Bytes} {newID : String}
    (ok : createBackupBlob config db now newID accountID deviceID storageKey ciphertextSHA256 sizeBytes
      chunkDigests metadata recoveryTokenHash = .ok next) (id : String) :
    CapabilityMove db next id (.blob now (.createBackupBlob newID accountID deviceID storageKey
      ciphertextSHA256 sizeBytes chunkDigests metadata recoveryTokenHash)) := by
  obtain ⟨backup, backups, created, -, rfl, rfl⟩ := createBackupBlob_ok ok
  have after : backups.find? id = if backup.id = id then some backup else
      (db.blobs.backups.find? id).map fun b =>
        if b.accountID = accountID ∧ b.deviceID = nullableEmptyString deviceID then
          { b with
            recoveryTokenHash := none, recoveryExpiresAt := none, recoveryNextOffset := 0
            recoveryLeaseID := none, recoveryLeaseExpiresAt := none } else b := by
    rw [Table.find?_of_insert? created.inserted]
    unfold takenOver
    rw [Table.find?_update]
  have elsewhere (apart : backup.id ≠ id) : Request.leavesBackup (.blob now (.createBackupBlob newID accountID
      deviceID storageKey ciphertextSHA256 backup.sizeBytes chunkDigests metadata recoveryTokenHash)) db id :=
    ⟨rfl, fun same => apart (created.named.trans (Option.some.inj same))⟩
  by_cases here : backup.id = id
  · obtain ⟨tokenHash, token⟩ := created.token
    have free : (db.takenOver accountID deviceID).find? id = none :=
      here ▸ Table.missing_of_insert? created.inserted
    unfold takenOver at free
    rw [Table.find?_update, Option.map_eq_none_iff] at free
    have stored : (backups.find? id).map (·.capability) = some ⟨backup.sizeBytes, some tokenHash, 0, none, none⟩ := by
      rw [after, if_pos here, Option.map_some, BackupBlob.capability, token, created.offset,
        created.unleased.1, created.unleased.2]
    have missing : db.capability? id = none := by rw [capability?, free, Option.map_none]
    exact .created (here ▸ created.named ▸ rfl) missing stored (enforceBlobQuota_ok created.admitted).1
  · rw [if_neg here] at after
    cases found : db.blobs.backups.find? id with
    | none =>
      have same : (backups.find? id).map (·.capability) = db.capability? id := by
        rw [after, capability?, found, Option.map_none]
      exact .kept same (elsewhere here)
    | some b =>
      rw [found, Option.map_some] at after
      have known : db.capability? id = some b.capability := by rw [capability?, found, Option.map_some]
      have stored : (backups.find? id).map (·.capability) = _ := congrArg (Option.map (·.capability)) after
      split at stored
      · exact .withdrawn known stored rfl (elsewhere here)
      · exact .kept (stored.trans known.symm) (elsewhere here)

theorem capabilityMove_of_blob {request : BlobRequest} (served : blobStep config db now request = .ok next)
    (id : String) : CapabilityMove db next id (.blob now request) := by
  have unmade : none ≠ some id := (Option.some_ne_none id).symm
  cases request <;> simp only [blobStep] at served
  case createAttachmentEnvelope attachment =>
    obtain ⟨-, -, attachments, -, rfl⟩ := createAttachmentEnvelope_ok served
    exact .of_same (db.withStore_tables { db.store with attachments }).1 ⟨rfl, unmade⟩
  case createBackupBlob => exact capabilityMove_of_create served id
  case deleteBackup =>
    obtain ⟨_, -, -, -, rfl⟩ := deleteBackup_ok served
    exact .of_delete rfl Bool.false_ne_true ⟨rfl, unmade⟩
  case queueBlobDeletion | completeBlobDeletion =>
    cases served
    exact .of_same rfl ⟨rfl, unmade⟩
  case recordBlobChunkDigests =>
    have served := of_require served
    cases served
    refine .kept ?_ ⟨rfl, unmade⟩
    unfold capability?
    rw [Table.find?_update, Option.map_map]
    congr 1
    funext b
    dsimp only [Function.comp]
    split <;> rfl
  case beginRecoveryTransfer leaseID tokenHash start =>
    obtain ⟨⟨transfer, _⟩, began, rfl⟩ := map_eq_ok.mp served
    obtain ⟨backup, mem, within, -, updated⟩ := beginRecoveryTransfer_ok began
    rcases capability?_of_updateBackup updated id with ⟨b, -, taken, -, found, stored, -⟩ | ⟨same, -⟩
    · obtain ⟨-, token, offset, free⟩ := taken
      exact .began found token free (within.trans_eq offset.symm) stored
    · exact .kept same ⟨rfl, unmade⟩
  case renewRecoveryTransfer leaseID =>
    have updated := of_require served
    rcases capability?_of_updateBackup updated id with ⟨b, -, taken, -, found, stored, -⟩ | ⟨same, -⟩
    · obtain ⟨held, runs⟩ := taken
      refine .renewed found held runs (stored.trans ?_)
      unfold Capability.leasedAt BackupBlob.capability
      rw [held]
    · exact .kept same ⟨rfl, unmade⟩
  case completeRecoveryTransfer leaseID startOffset bytesWritten expected =>
    obtain ⟨start, written, whole, backup, selected, fits, updated⟩ := completeRecoveryTransfer_ok served
    have chosen := List.find?_some selected
    obtain ⟨under, reaches⟩ := of_decide_eq_true chosen
    have mem : backup ∈ db.blobs.backups := List.mem_of_find?_eq_some selected
    rcases capability?_of_updateBackup updated id with ⟨b, -, taken, named, found, stored, alone⟩ | ⟨same, apart⟩
    · cases alone backup mem ⟨under, rfl⟩
      refine .completed found under.1 under.2 ⟨start, written, whole⟩ ⟨reaches, fits⟩ ?_ stored
      simp only [Request.range?, selected, Option.bind_some, if_pos named]
    · refine .kept same ⟨?_, unmade⟩
      simp only [Request.range?, selected, Option.bind_some, if_neg (apart backup mem ⟨under, rfl⟩)]

theorem Database.Retirement.backups (retired : Retirement db next) :
    next.blobs.backups = db.blobs.backups := by
  induction retired with
  | refl => rfl
  | trans _ _ first second => exact second.trans first
  | intents db p => exact (db.retireHistoryIntents_tables p).1
  | transfers db p terminal now => exact (db.retireHistoryTransfers_tables p _ now).1
  | links db p => exact (db.deleteDeviceLinks_tables p).1

theorem backups_of_history {request : HistoryRequest} {reply : HistoryReply}
    (served : historyStep config db now request = .ok (reply, next)) :
    next.blobs.backups = db.blobs.backups := by
  cases historyOutcome_of_step served with
  | unchanged => rfl
  | registered registered =>
    obtain ⟨_, -, rfl⟩ := registered.inserted
    exact (db.retireHistoryIntents_tables _).1
  | finalized finalized =>
    obtain ⟨_, -, rfl⟩ := finalized.inserted
    rfl
  | aborted => exact (db.retireHistoryIntents_tables _).1
  | acknowledged => exact (db.retireHistoryTransfers_tables _ _ now).1
  | cancelled => exact (retireHistoryTransfers_tables _ _ _ now).1.trans (db.retireHistoryIntents_tables _).1

theorem capabilityMove_of_step {reply : Reply} (ok : Database.step config db request = .ok (reply, next))
    (id : String) : CapabilityMove db next id request := by
  cases outcome_of_step ok with
  | @called _ _ _ store | @statusSet _ _ _ store => exact .of_same (db.withStore_tables store).1 ⟨rfl, nofun⟩
  | @revoked _ _ _ store now accountID deviceID =>
    have retired := (retireDeviceLinksForDevice_retirement
      { db.withStore store with sessions := db.sessions.delete (·.deviceID = some deviceID) }
      accountID deviceID now).backups
    exact .of_same (retired.trans (db.withStore_tables store).1) ⟨rfl, nofun⟩
  | @deleted _ _ _ store now accountID _ =>
    have retired := ((db.withStore store).withoutAccountLinks_retirement now accountID).backups
    have dropped := (dropBackups_tables ((db.withStore store).withoutAccountLinks now accountID).blobs accountID).1
    rw [retired, (db.withStore_tables store).1] at dropped
    exact .of_delete dropped nofun ⟨rfl, nofun⟩
  | approved _ _ _ outcome | completed _ _ _ _ outcome => cases outcome <;> exact .of_same rfl ⟨rfl, nofun⟩
  | history served => exact .of_same (backups_of_history served) ⟨rfl, nofun⟩
  | blob served => exact capabilityMove_of_blob served id
  | recoveryAnswered _ _ _ outcome =>
    cases outcome with
    | completed => exact .of_same (db.withoutLinks_retirement _ _).backups ⟨rfl, nofun⟩
    | _ => exact .of_same rfl ⟨rfl, nofun⟩
  | @pruned now => exact .of_same (db.withoutStaleLinks_retirement now).backups ⟨rfl, nofun⟩
  | _ => exact .of_same rfl ⟨rfl, nofun⟩

end Veritra.Storage
