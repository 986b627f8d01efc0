import Veritra.Model.Storage.Server

/-! # The tables of accounts, sessions and blobs

The rest of the database around the message store: the columns of accounts and devices that carry
credentials, sessions, one-time key packages, enrollment reservations, recovery requests, device
links, history transfers, backups and the usage counters of blobs. A hash is the hashed value: equal
hashes are hashes of equal values. What identifies a bearer token is its hash, kept as a text.
-/

namespace Veritra.Storage

open Relational

abbrev TokenHash := String
abbrev LinkID := String
abbrev StorageKey := String

/-- One minute, hour and day in the unit of `Time`. -/
def minute : Time := 60 * second
def hour : Time := 60 * minute
def day : Time := 24 * hour

/-- A salted password hash. -/
structure PasswordHash where
  password : String
  salt : String
  deriving DecidableEq, Repr

/-- The `username` and `password_hash` columns of an account; a deleted account has no hash. -/
structure Credentials where
  accountID : AccountID
  username : String
  passwordHash : Option PasswordHash
  deriving DecidableEq, Repr

/-- The columns of a device that its enrollment fixes, and its last activity. -/
structure DeviceKeys where
  deviceID : DeviceID
  name : String
  keyPackage : Bytes
  signingKey : Option Bytes
  authSecretHash : Option String
  lastSeenAt : Option Time
  deriving DecidableEq, Repr

inductive ReservationKind
  | owner | register | recovery
  deriving DecidableEq, Repr

/-- A reserved enrollment: the ids that the new account and device will have. -/
structure EnrollmentReservation where
  id : String
  kind : ReservationKind
  accountID : AccountID
  deviceID : DeviceID
  expiresAt : Time
  consumedAt : Option Time
  deriving DecidableEq, Repr

/-- The verification key of an account's recovery key. -/
structure RecoveryKey where
  accountID : AccountID
  authPublicKey : Bytes
  rkID : Bytes
  deriving DecidableEq, Repr

inductive RecoveryState
  | waiting | completed | cancelled | expired
  deriving DecidableEq, Repr

/-- A claimed recovery, with the credentials that the claim proved. -/
structure RecoveryRequest where
  id : String
  accountID : AccountID
  deviceID : DeviceID
  deviceName : String
  keyPackage : Bytes
  signingKey : Bytes
  deviceAuthHash : String
  claimTokenHash : TokenHash
  verifiedPasswordHash : PasswordHash
  verifiedAuthKey : Bytes
  state : RecoveryState
  createdAt : Time
  readyAt : Time
  expiresAt : Time
  completedAt : Option Time
  deriving DecidableEq, Repr

structure AccountTables where
  credentials : IndexedTable Credentials Credentials.accountID Credentials.username
  deviceKeys : Table DeviceKeys DeviceKeys.deviceID
  reservations : Table EnrollmentReservation EnrollmentReservation.id
  recoveryKeys : Table RecoveryKey RecoveryKey.accountID

/-- A session with its current token and the token that the last rotation replaced. -/
structure Session where
  tokenHash : TokenHash
  accountID : AccountID
  deviceID : Option DeviceID
  expiresAt : Time
  recentAuthAt : Option Time
  lastUsedAt : Time
  absoluteExpiresAt : Time
  previousTokenHash : Option TokenHash
  previousExpiresAt : Option Time
  deriving DecidableEq, Repr

/-- A one-time key package of a device. -/
structure KeyPackage where
  id : String
  deviceID : DeviceID
  keyPackage : Bytes
  ciphersuite : String
  createdAt : Time
  expiresAt : Time
  claimedAt : Option Time
  claimedByDeviceID : Option DeviceID
  deriving DecidableEq, Repr

inductive LinkState
  | pending | claimed | approved | consumed | revoked
  deriving DecidableEq, Repr

/-- `encodeEnrollmentChallenge`: the encoding is injective, so the challenge is what it encodes. -/
structure EnrollmentChallenge where
  reservationID : String
  accountID : AccountID
  deviceID : DeviceID
  nonce : Bytes
  deriving DecidableEq, Repr

/-- What a claim's signature covers. Its hash names the claim. -/
structure ClaimProof where
  serverOrigin : String
  code : String
  reservationRequestID : String
  linkID : LinkID
  accountID : AccountID
  deviceID : DeviceID
  deviceName : String
  challenge : EnrollmentChallenge
  signingKey : Bytes
  keyPackage : Bytes
  transferPublicKey : Bytes
  transcriptHash : Bytes
  claimTag : Bytes
  claimTokenHash : TokenHash
  deviceSecretHash : String
  initialSessionTokenHash : TokenHash
  deriving DecidableEq, Repr

/-- The columns that a claim fills. -/
structure LinkClaim where
  deviceName : String
  keyPackage : Bytes
  signingKey : Bytes
  transferPublicKey : Bytes
  transcriptHash : Bytes
  claimTag : Bytes
  claimTokenHash : TokenHash
  deviceSecretHash : String
  initialSessionTokenHash : TokenHash
  claimRequestHash : ClaimProof
  claimedAt : Time
  deriving DecidableEq, Repr

/-- The columns that a reservation fills. -/
structure LinkReservation where
  requestID : String
  recipientDeviceID : DeviceID
  challenge : EnrollmentChallenge
  deriving DecidableEq, Repr

/-- The columns that an approval fills. -/
structure LinkApproval where
  approvalTag : Bytes
  approvedAt : Time
  transferExpiresAt : Time
  deriving DecidableEq, Repr

/-- A row of `device_links_v3`. The columns that one statement fills together are one field. -/
structure DeviceLink where
  id : LinkID
  code : String
  accountID : AccountID
  sourceDeviceID : DeviceID
  serverOrigin : String
  ttl : Time
  state : LinkState
  linkNonce : Bytes
  createdAt : Time
  expiresAt : Time
  reservation : Option LinkReservation
  claim : Option LinkClaim
  approval : Option LinkApproval
  completedAt : Option Time
  revokedAt : Option Time
  historyCancelledAt : Option Time
  deriving DecidableEq, Repr

inductive TransferState
  | active | acknowledged | cancelled | expired
  deriving DecidableEq, Repr

/-- What a source device announces about the history it uploads. -/
structure HistoryTransferInput where
  protocolVersion : String
  transferID : String
  claimRequestHash : ClaimProof
  transcriptHash : Bytes
  ciphertextSHA256 : String
  sizeBytes : ℤ
  handoff : Bytes
  deriving DecidableEq, Repr

/-- A history transfer of a link. -/
structure HistoryTransfer where
  linkID : LinkID
  transferID : String
  accountID : AccountID
  sourceDeviceID : DeviceID
  recipientDeviceID : DeviceID
  claimRequestHash : ClaimProof
  transcriptHash : Bytes
  ciphertextSHA256 : String
  sizeBytes : ℤ
  handoff : Option Bytes
  handoffSHA256 : Bytes
  storageKey : Option StorageKey
  chunkDigests : Option Bytes
  state : TransferState
  createdAt : Time
  expiresAt : Time
  terminalAt : Option Time
  deriving DecidableEq, Repr

/-- A reserved upload of a link's history. -/
structure UploadIntent where
  storageKey : StorageKey
  linkID : LinkID
  accountID : AccountID
  transferID : String
  metadataSHA256 : HistoryTransferInput
  sizeBytes : ℤ
  createdAt : Time
  expiresAt : Time
  deriving DecidableEq, Repr

/-- The text of a backup's key-derivation metadata, and the integer it has as `state_counter`. -/
structure KeyDerivationMetadata where
  raw : String
  stateCounter : Option ℤ
  deriving DecidableEq, Repr

/-- An encrypted backup, with the capability to fetch it for a recovery. -/
structure BackupBlob where
  id : String
  accountID : AccountID
  deviceID : Option DeviceID
  storageKey : StorageKey
  ciphertextSHA256 : String
  sizeBytes : ℤ
  keyDerivationMetadata : KeyDerivationMetadata
  createdAt : Time
  recoveryTokenHash : Option Bytes
  recoveryExpiresAt : Option Time
  recoveryNextOffset : ℤ
  recoveryLeaseID : Option String
  recoveryLeaseExpiresAt : Option Time
  chunkDigests : Option Bytes
  deriving DecidableEq, Repr

/-- A row of `blob_usage_accounts`. -/
structure AccountUsage where
  accountID : AccountID
  sizeBytes : ℤ
  deriving DecidableEq, Repr

structure BlobTables where
  backups : Table BackupBlob BackupBlob.id
  transfers : Table HistoryTransfer HistoryTransfer.linkID
  intents : IndexedTable UploadIntent UploadIntent.storageKey UploadIntent.linkID
  accountUsage : Table AccountUsage AccountUsage.accountID
  instanceUsage : ℤ

structure Database where
  store : Store
  accounts : AccountTables
  sessions : Table Session Session.tokenHash
  keyPackages : Table KeyPackage KeyPackage.id
  recoveries : Table RecoveryRequest RecoveryRequest.id
  links : Table DeviceLink DeviceLink.id
  blobs : BlobTables

/-- The database right after the migrations. -/
def Database.init : Database where
  store := .init
  accounts := ⟨.empty, .empty, .empty, .empty⟩
  sessions := .empty
  keyPackages := .empty
  recoveries := .empty
  links := .empty
  blobs := ⟨.empty, .empty, .empty, .empty, 0⟩

/-- Idle and absolute lifetime of a session, the first one at most the second. -/
structure SessionPolicy where
  idle : Time
  absolute : Time
  idle_le_absolute : idle ≤ absolute

/-- `newSessionPolicy`: defaults for absent lifetimes, and the idle lifetime clamped. -/
def newSessionPolicy (idle absolute : Time) : SessionPolicy :=
  let idle := if idle = 0 then 14 * day else idle
  let absolute := if absolute = 0 then 30 * day else absolute
  ⟨min idle absolute, absolute, Nat.min_le_right idle absolute⟩

/-- The settings of an instance. The checks of a signature and of a link's origin are parameters. -/
structure Config where
  limits : Limits
  sessions : SessionPolicy
  keyPackageClaimsPerTarget : ℕ
  devicesPerAccount : ℕ
  accountStorageBytes : ℤ
  instanceStorageBytes : ℤ
  accountBlobs : ℕ
  verifySignature : Bytes → ClaimProof → Bytes → Bool
  validOrigin : String → Bool

/-- `PendingDeviceLinksPerAccount`. -/
def pendingDeviceLinksPerAccount : ℕ := 3

/-- `OperationalRowRetention`. -/
def operationalRowRetention : Time := 30 * day

end Veritra.Storage
