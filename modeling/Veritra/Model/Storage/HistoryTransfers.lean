import Veritra.Model.Storage.DeviceLinks

/-! # History transfers

The transfer of a history archive to a linked device, from `device_history_transfer_store.go`. The
source device registers an upload, which reserves the quota, and finalizes it into an active transfer;
the recipient acknowledges it, and either end may cancel. A link has at most one of them at a time.
-/

namespace Veritra.Storage

open Relational Machine

def maxHistoryCiphertext : ℤ := 100 * 1024 * 1024

def historyIntentLifetime : Time := 10 * minute

/-- `HistoryAccess`: a session's account and device, or a claim token instead. -/
structure HistoryAccess where
  accountID : AccountID
  deviceID : DeviceID
  claimTokenHash : TokenHash
  deriving DecidableEq, Repr

/-- The blob that an upload stored. -/
structure BlobRef where
  storageKey : StorageKey
  sha256 : String
  size : ℤ
  chunkDigests : Option Bytes
  deriving DecidableEq, Repr

/-- `validateHistoryInput`. -/
def HistoryTransferInput.valid (input : HistoryTransferInput) : Prop :=
  input.protocolVersion = deviceLinkProtocol ∧ validV3Hash input.transferID ∧
    validV3Hash input.ciphertextSHA256 ∧ input.transcriptHash.length = 32 ∧ 0 < input.sizeBytes ∧
    input.sizeBytes ≤ maxHistoryCiphertext ∧ 0 < input.handoff.length ∧ input.handoff.length ≤ 8192
  deriving Decidable

/-- `sameHistoryInput`: the hash of the handoff stands for the handoff. -/
def HistoryTransfer.sameInput (transfer : HistoryTransfer) (input : HistoryTransferInput) : Prop :=
  transfer.transferID = input.transferID ∧ transfer.claimRequestHash = input.claimRequestHash ∧
    transfer.transcriptHash = input.transcriptHash ∧
    transfer.ciphertextSHA256 = input.ciphertextSHA256 ∧ transfer.sizeBytes = input.sizeBytes ∧
    transfer.handoffSHA256 = input.handoff
  deriving Decidable

/-- The transfer that finalizing the upload inserts. -/
def HistoryTransferInput.transfer (input : HistoryTransferInput) (link : DeviceLink)
    (recipientDeviceID : DeviceID) (ref : BlobRef) (now expiresAt : Time) : HistoryTransfer where
  linkID := link.id
  transferID := input.transferID
  accountID := link.accountID
  sourceDeviceID := link.sourceDeviceID
  recipientDeviceID
  claimRequestHash := input.claimRequestHash
  transcriptHash := input.transcriptHash
  ciphertextSHA256 := input.ciphertextSHA256
  sizeBytes := input.sizeBytes
  handoff := some input.handoff
  handoffSHA256 := input.handoff
  storageKey := some ref.storageKey
  chunkDigests := ref.chunkDigests
  state := .active
  createdAt := now
  expiresAt
  terminalAt := none

/-- What a history request answers. -/
inductive HistoryReply
  | done
  | transfer (transfer : HistoryTransfer)
  /-- An upload check that found no transfer. -/
  | noTransfer
  deriving DecidableEq, Repr

namespace Database

/-- The source device of the link with its session. -/
def isHistorySource (access : HistoryAccess) (link : DeviceLink) : Prop :=
  access.accountID = link.accountID ∧ access.deviceID = link.sourceDeviceID ∧ access.claimTokenHash = ""
  deriving Decidable

/-- The recipient device with its session, or with the claim token alone. -/
def isHistoryRecipient (access : HistoryAccess) (link : DeviceLink) : Prop :=
  (access.accountID = link.accountID ∧ access.deviceID = link.recipientDeviceID.getD "" ∧ access.claimTokenHash = "") ∨
  (access.accountID = "" ∧ access.deviceID = "" ∧ validV3Hash access.claimTokenHash ∧
    ∃ claim ∈ link.claim, claim.claimTokenHash = access.claimTokenHash)
  deriving Decidable

/-- `historyLink`: the approved or consumed link, and whether its source asks. -/
def historyLink (db : Database) (now : Time) (id : LinkID) (access : HistoryAccess) (sourceOnly : Bool) :
    Except StoreError (DeviceLink × Bool) := do
  let link ← db.loadDeviceLink (·.id = id)
  require (isHistorySource access link ∨ (sourceOnly = false ∧ isHistoryRecipient access link))
    StoreError.forbidden
  require ((link.state = .approved ∨ link.state = .consumed) ∧ link.validWindow now)
    StoreError.deviceLinkInvalid
  pure (link, decide (isHistorySource access link))

/-- Look whether an upload is needed. Nothing is written. -/
def checkHistoryUpload (db : Database) (now : Time) (id : LinkID) (access : HistoryAccess)
    (input : HistoryTransferInput) : Except StoreError HistoryReply := do
  require input.valid StoreError.invalidInput
  let (link, _) ← db.historyLink now id access true
  require (link.matchesClaim input.claimRequestHash input.transcriptHash)
    StoreError.deviceLinkVerificationFailed
  match db.blobs.transfers.find? id with
  | some transfer =>
    require (transfer.sameInput input) StoreError.idempotencyConflict
    pure (.transfer { transfer with handoff := none })
  | none =>
    require (link.historyCancelledAt = none) StoreError.deviceLinkInvalid
    pure .noTransfer

/-- Reserve the quota of an upload. -/
def registerHistoryUpload (config : Config) (db : Database) (now : Time) (id : LinkID)
    (access : HistoryAccess) (input : HistoryTransferInput) (key : StorageKey) :
    Except StoreError Database := do
  require (input.valid ∧ validID "blob" key) StoreError.invalidInput
  let (link, _) ← db.historyLink now id access true
  require (link.matchesClaim input.claimRequestHash input.transcriptHash)
    StoreError.deviceLinkVerificationFailed
  require (link.historyCancelledAt = none ∧ ∀ transfer ∈ db.blobs.transfers, transfer.linkID ≠ id)
    StoreError.idempotencyConflict
  let db := db.retireHistoryIntents fun intent => intent.linkID = id ∧ intent.expiresAt ≤ now
  require (∀ intent ∈ db.blobs.intents, intent.linkID ≠ id) StoreError.idempotencyConflict
  enforceBlobQuota config db link.accountID input.sizeBytes
  let some approval := link.approval | .error .deviceLinkInvalid
  let intent : UploadIntent :=
    { storageKey := key, linkID := id, accountID := link.accountID, transferID := input.transferID,
      metadataSHA256 := input, sizeBytes := input.sizeBytes, createdAt := now,
      expiresAt := min (now + historyIntentLifetime) approval.transferExpiresAt }
  match db.blobs.intents.insert? intent with
  | none => .error .uniqueConstraint
  | some intents =>
    pure { db with blobs := { db.blobs with intents }.addUsage link.accountID input.sizeBytes }

/-- Turn a registered upload into the link's active transfer. -/
def finalizeHistoryUpload (db : Database) (now : Time) (id : LinkID) (access : HistoryAccess)
    (input : HistoryTransferInput) (ref : BlobRef) : Except StoreError (HistoryTransfer × Database) := do
  require (input.valid ∧ ref.sha256 = input.ciphertextSHA256 ∧ ref.size = input.sizeBytes)
    StoreError.invalidInput
  let (link, _) ← db.historyLink now id access true
  let some intent := db.blobs.intents.find? ref.storageKey | .error .deviceLinkInvalid
  require (intent.linkID = id ∧ now < intent.expiresAt) StoreError.deviceLinkInvalid
  require (intent.metadataSHA256 = input) StoreError.idempotencyConflict
  let (some approval, some reservation) := (link.approval, link.reservation) | .error .deviceLinkInvalid
  let transfer := input.transfer link reservation.recipientDeviceID ref now approval.transferExpiresAt
  require (∀ other ∈ db.blobs.transfers, other.transferID ≠ transfer.transferID ∧
    other.storageKey ≠ transfer.storageKey) StoreError.uniqueConstraint
  match db.blobs.transfers.insert? transfer with
  | none => .error .uniqueConstraint
  | some transfers =>
    let intents := db.blobs.intents.delete (·.storageKey = ref.storageKey)
    pure ({ transfer with handoff := none },
      { db with
        blobs := ({ db.blobs with intents, transfers }.dropUsage intent.accountID intent.sizeBytes).addUsage
          transfer.accountID transfer.sizeBytes })

def abortHistoryUpload (db : Database) (key : StorageKey) : Database :=
  db.retireHistoryIntents (·.storageKey = key)

def acknowledgeHistoryTransfer (db : Database) (now : Time) (id : LinkID) (access : HistoryAccess)
    (transferID digest : String) : Except StoreError (HistoryTransfer × Database) := do
  let (_, source) ← db.historyLink now id access false
  require (source = false) StoreError.forbidden
  let some transfer := db.blobs.transfers.find? id | .error .notFound
  require (transfer.transferID = transferID ∧ transfer.ciphertextSHA256 = digest)
    StoreError.idempotencyConflict
  match transfer.state with
  | .acknowledged => pure (transfer, db)
  | .active =>
    pure (transfer.retire .acknowledged now, db.retireHistoryTransfers (·.linkID = id) .acknowledged now)
  | _ => .error .idempotencyConflict

/-- End the link's upload or transfer, and refuse later ones. -/
def cancelHistoryTransfer (db : Database) (now : Time) (id : LinkID) (access : HistoryAccess) :
    Except StoreError Database := do
  let _ ← db.historyLink now id access false
  let db := (db.retireHistoryIntents (·.linkID = id)).retireHistoryTransfers (·.linkID = id) .cancelled now
  pure { db with
    links := db.links.update (·.id = id)
      fun link => { link with historyCancelledAt := link.historyCancelledAt.or (some now) } }

end Database

/-- The requests about a link's history. -/
inductive HistoryRequest
  | check (id : LinkID) (access : HistoryAccess) (input : HistoryTransferInput)
  | register (id : LinkID) (access : HistoryAccess) (input : HistoryTransferInput) (key : StorageKey)
  | finalize (id : LinkID) (access : HistoryAccess) (input : HistoryTransferInput) (ref : BlobRef)
  | abort (key : StorageKey)
  | acknowledge (id : LinkID) (access : HistoryAccess) (transferID digest : String)
  | cancel (id : LinkID) (access : HistoryAccess)

def Database.historyStep (config : Config) (db : Database) (now : Time) :
    HistoryRequest → Except StoreError (HistoryReply × Database)
  | .check id access input => (db.checkHistoryUpload now id access input).map (·, db)
  | .register id access input key =>
    (registerHistoryUpload config db now id access input key).map (.done, ·)
  | .finalize id access input ref =>
    (db.finalizeHistoryUpload now id access input ref).map fun (transfer, db) => (.transfer transfer, db)
  | .abort key => .ok (.done, db.abortHistoryUpload key)
  | .acknowledge id access transferID digest =>
    (db.acknowledgeHistoryTransfer now id access transferID digest).map
      fun (transfer, db) => (.transfer transfer, db)
  | .cancel id access => (db.cancelHistoryTransfer now id access).map (.done, ·)

end Veritra.Storage
