import Veritra.Model.Storage.Housekeeping

/-! # The database as a transactional service

Every operation that writes one of the modelled tables is a request, served as one transaction on the
single connection, so every interleaving of handlers, retries and sweeps is a sequence of requests. A
handler that reads a row first and writes later sends what it read as an argument, and any other
request may be served in between. Clock readings, generated ids, salts and tokens are arguments too.
-/

namespace Veritra.Storage

open Relational Machine

/-- The calls of the message store that are requests of their own: the others are parts of a
registration, a device approval, a recovery or an upload. -/
def Call.isPublic : Call → Bool
  | registerAccount .. | enrollDevice .. | completeRecovery .. | createAttachmentEnvelope .. => false
  | _ => true

/-- A call of the message store that a handler or a sweep makes on its own. -/
abbrev PublicCall := { call : Call // call.isPublic }

/-- The requests about blobs. -/
inductive BlobRequest
  | createAttachmentEnvelope (attachment : AttachmentEnvelope)
  | createBackupBlob (id : String) (accountID : AccountID) (deviceID : DeviceID)
      (storageKey : StorageKey) (ciphertextSHA256 : String) (sizeBytes : ℤ) (chunkDigests : Option Bytes)
      (metadata : KeyDerivationMetadata) (recoveryTokenHash : Bytes)
  | deleteBackup (id : String) (accountID : AccountID)
  | queueBlobDeletion (storageKey : StorageKey)
  | completeBlobDeletion (storageKey : StorageKey)
  | recordBlobChunkDigests (storageKey : StorageKey) (ciphertextSHA256 : String) (sizeBytes : ℤ)
      (chunkDigests : Bytes)
  | beginRecoveryTransfer (leaseID : String) (recoveryTokenHash : Bytes) (start : ℤ)
  | renewRecoveryTransfer (leaseID : String)
  | completeRecoveryTransfer (leaseID : String) (startOffset bytesWritten expected : ℤ)

/-- The requests that reserve an enrollment. -/
inductive ReserveRequest
  | owner (id : String) (accountID : AccountID) (deviceID : DeviceID)
  | registration (id : String) (accountID : AccountID) (deviceID : DeviceID)
  | recovery (id username : String) (decoyAccountID : AccountID) (deviceID : DeviceID)

/-- The requests that enroll a device. -/
inductive EnrollRequest
  | createOwner (input : RegisterInput)
  | registerWithInvite (input : RegisterInput)
  | approveLegacyLink (accountID : AccountID) (device : NewDevice) (withSyncEvent : Bool)

/-- A request, with the clock reading of the operation. -/
inductive Request
  | call (request : PublicCall)
  | session (now : Time) (request : SessionRequest)
  | keyPackage (now : Time) (request : KeyPackageRequest)
  | reserve (now : Time) (request : ReserveRequest)
  | enroll (now : Time) (request : EnrollRequest)
  | consumeLegacyLink (now : Time) (accountID : AccountID) (deviceID : DeviceID)
      (sessionTokenHash : TokenHash) (sessionExpiresAt : Option Time)
  | link (now : Time) (request : LinkRequest)
  | approveLink (now : Time) (keyPackageID : String) (id : LinkID) (accountID : AccountID)
      (sourceDeviceID : DeviceID) (requestHash : ClaimProof) (transcriptHash approvalTag : Bytes)
  | completeLink (now : Time) (id : LinkID) (claimTokenHash : TokenHash) (requestHash : ClaimProof)
      (initialSessionHash : TokenHash) (transcriptHash : Bytes)
  | history (now : Time) (request : HistoryRequest)
  | blob (now : Time) (request : BlobRequest)
  | password (now : Time) (request : PasswordRequest)
  | recovery (now : Time) (request : RecoveryCall)
  | markDeviceSeen (now : Time) (deviceID : DeviceID)
  | pruneOperationalRows (now : Time)

/-- The clock reading of the request, if it takes one. -/
def Request.now : Request → Option Time
  | call request => request.1.now
  | session now _ | keyPackage now _ | reserve now _ | enroll now _ | consumeLegacyLink now .. | link now _
  | approveLink now .. | completeLink now .. | history now _ | blob now _ | password now _
  | recovery now _ | markDeviceSeen now _ | pruneOperationalRows now => some now

/-- What a committed request answers. -/
inductive Reply
  | done
  | answer (answer : Answer)
  | keyPackages (items : List DeviceKeyPackage)
  | link (reply : LinkReply)
  | approved (view : DeviceLinkView) (device : EnrolledDevice) (eventID : EventID)
  | completed (receipt : DeviceLinkCompletion) (approvalTag : Bytes)
  | history (reply : HistoryReply)
  | recovery (reply : RecoveryReply)
  deriving DecidableEq, Repr

namespace Database

/-- Serve a call of the message store, with what it does around it. -/
def callStep (config : Config) (db : Database) (call : Call) : Except StoreError (Reply × Database) := do
  let (answer, store) ← step config.limits db.store call
  let next ← (db.withStore store).afterCall call
  pure (.answer (match call, answer with
    | .deleteAccountData _ accountID, .storageKeys keys => .storageKeys (keys ++ db.backupKeys accountID)
    | _, answer => answer), next)

def blobStep (config : Config) (db : Database) (now : Time) : BlobRequest → Except StoreError Database
  | .createAttachmentEnvelope attachment => createAttachmentEnvelope config db now attachment
  | .createBackupBlob id accountID deviceID storageKey ciphertextSHA256 sizeBytes chunkDigests metadata
      recoveryTokenHash =>
    createBackupBlob config db now id accountID deviceID storageKey ciphertextSHA256 sizeBytes
      chunkDigests metadata recoveryTokenHash
  | .deleteBackup id accountID => db.deleteBackup id accountID
  | .queueBlobDeletion storageKey => .ok (db.queueBlobDeletion storageKey)
  | .completeBlobDeletion storageKey => .ok (db.completeBlobDeletion storageKey)
  | .recordBlobChunkDigests storageKey ciphertextSHA256 sizeBytes chunkDigests =>
    db.recordBlobChunkDigests storageKey ciphertextSHA256 sizeBytes chunkDigests
  | .beginRecoveryTransfer leaseID recoveryTokenHash start =>
    (db.beginRecoveryTransfer now leaseID recoveryTokenHash start).map (·.2)
  | .renewRecoveryTransfer leaseID => db.renewRecoveryTransfer now leaseID
  | .completeRecoveryTransfer leaseID startOffset bytesWritten expected =>
    db.completeRecoveryTransfer now leaseID startOffset bytesWritten expected

def reserveStep (db : Database) (now : Time) : ReserveRequest → Except StoreError AccountTables
  | .owner id accountID deviceID => db.reserveOwnerEnrollment now id accountID deviceID
  | .registration id accountID deviceID => db.reserveRegistrationEnrollment now id accountID deviceID
  | .recovery id username decoyAccountID deviceID =>
    db.reserveRecoveryEnrollment now id username decoyAccountID deviceID

def enrollStep (config : Config) (db : Database) (now : Time) : EnrollRequest → Except StoreError Database
  | .createOwner input => createOwner config db now input
  | .registerWithInvite input => registerWithInvite config db now input
  | .approveLegacyLink accountID device withSyncEvent =>
    approveLegacyDeviceLink config db now accountID device withSyncEvent

def step (config : Config) (db : Database) : Request → Except StoreError (Reply × Database)
  | .call request => callStep config db request.1
  | .session now request => (sessionStep config db now request).map fun sessions => (.done, { db with sessions })
  | .keyPackage now request =>
    (keyPackageStep config db now request).map
      fun (items, keyPackages) => (.keyPackages items, { db with keyPackages })
  | .reserve now request => (db.reserveStep now request).map fun accounts => (.done, { db with accounts })
  | .enroll now request => (enrollStep config db now request).map (.done, ·)
  | .consumeLegacyLink now accountID deviceID sessionTokenHash sessionExpiresAt =>
    (consumeApprovedDeviceLink config db now accountID deviceID sessionTokenHash sessionExpiresAt).map
      fun sessions => (.done, { db with sessions })
  | .link now request => (linkStep config db now request).map fun (reply, links) => (.link reply, { db with links })
  | .approveLink now keyPackageID id accountID sourceDeviceID requestHash transcriptHash approvalTag =>
    (approveDeviceLink config db now keyPackageID id accountID sourceDeviceID requestHash transcriptHash
      approvalTag).map fun ((view, device, eventID), db) => (.approved view device eventID, db)
  | .completeLink now id claimTokenHash requestHash initialSessionHash transcriptHash =>
    (completeDeviceLink config db now id claimTokenHash requestHash initialSessionHash transcriptHash).map
      fun ((receipt, approvalTag), db) => (.completed receipt approvalTag, db)
  | .history now request => (historyStep config db now request).map fun (reply, db) => (.history reply, db)
  | .blob now request => (blobStep config db now request).map (.done, ·)
  | .password now request => (db.passwordStep now request).map (.done, ·)
  | .recovery now request => (recoveryStep config db now request).map fun (reply, db) => (.recovery reply, db)
  | .markDeviceSeen now deviceID => .ok (.done, { db with accounts := db.markDeviceSeen now deviceID })
  | .pruneOperationalRows now => .ok (.done, db.pruneOperationalRows now)

end Database

abbrev Exchange := Served Database Request StoreError Reply

/-- The clock does not go backwards over the history. -/
def ClockAdvances (history : List Exchange) : Prop :=
  (history.filterMap (·.call.now)).Pairwise (· ≤ ·)

instance (history : List Exchange) : Decidable (ClockAdvances history) :=
  inferInstanceAs (Decidable (List.Pairwise _ _))

theorem ClockAdvances.earlier {history more : List Exchange} (clock : ClockAdvances (history ++ more)) :
    ClockAdvances history := by
  unfold ClockAdvances at clock
  rw [List.filterMap_append] at clock
  exact (List.pairwise_append.mp clock).1

theorem ClockAdvances.le_now {history : List Exchange} {exchange : Exchange} {now : Time}
    (clock : ClockAdvances (history ++ [exchange])) (reading : exchange.call.now = some now) :
    ∀ time ∈ history.filterMap (·.call.now), time ≤ now := by
  unfold ClockAdvances at clock
  rw [List.filterMap_append] at clock
  intro time read
  refine (List.pairwise_append.mp clock).2.2 time read now ?_
  simp [reading]

/-- Runs of the service from the freshly migrated database. -/
abbrev DatabaseRun (config : Config) := Run (Database.step config) unguarded Database.init

end Veritra.Storage
