import Veritra.Model.Storage.Enrollment

/-! # Device links

The durable enrollment of a second device, from `device_link_v3_store.go`. A device of the account
creates a link, the new device reserves an id on it and claims it with signed key material, the first
device approves exactly that claim, and the new device completes the link with its first session.
Every lookup goes through one query that hides links of inactive accounts and revoked devices.
-/

namespace Veritra.Storage

open Relational Machine

def deviceLinkProtocol : String := "veritra-device-link-v3"

def deviceLinkTransferLifetime : Time := 7 * day

/-- `validV3Hash`: 32 bytes in lower-case hexadecimal. -/
def validV3Hash (value : String) : Prop := value.toList.length = 64 ∧ value.toList.all isHexDigit
  deriving Decidable

/-- `validV3Name`. -/
def validV3Name (name : String) : Prop := name ≠ "" ∧ byteLength name ≤ 64 ∧ trimSpace name = name
  deriving Decidable

/-- A field with a length prefix of two bytes is not empty and fits. -/
def fitsLength (length : ℕ) : Prop := 0 < length ∧ length ≤ 65535
  deriving Decidable

/-- The length of the encoded challenge: its domain, and four fields with their prefixes. -/
def EnrollmentChallenge.encodedLength (challenge : EnrollmentChallenge) : ℕ :=
  byteLength "veritra-enrollment-v1" + (2 + byteLength challenge.reservationID) +
    (2 + byteLength challenge.accountID) + (2 + byteLength challenge.deviceID) +
    (2 + challenge.nonce.length)

def Store.unrevokedOf (s : Store) (deviceID : DeviceID) (accountID : AccountID) : Prop :=
  ∃ d ∈ s.devices, d.id = deviceID ∧ d.accountID = accountID ∧ d.revokedAt = none
  deriving Decidable

/-- The claim of a new device. -/
structure DeviceLinkClaimInput where
  code : String
  protocolVersion : String
  serverOrigin : String
  reservationRequestID : String
  enrollmentReservationID : LinkID
  deviceName : String
  deviceKeyPackage : Bytes
  signingKey : Bytes
  transferPublicKey : Bytes
  transcriptHash : Bytes
  claimTag : Bytes
  claimTokenHash : TokenHash
  deviceSecretHash : String
  initialSessionTokenHash : TokenHash
  challengeSignature : Bytes
  deriving DecidableEq, Repr

/-- The public part of a link. -/
structure DeviceLinkView where
  id : LinkID
  code : String
  state : LinkState
  accountID : AccountID
  sourceDeviceID : DeviceID
  serverOrigin : String
  linkNonce : Bytes
  existingSigningKey : Option Bytes
  recipientDeviceID : Option DeviceID
  deviceName : Option String
  signingKey : Option Bytes
  transferPublicKey : Option Bytes
  transcriptHash : Option Bytes
  claimTag : Option Bytes
  approvalTag : Option Bytes
  claimRequestHash : Option ClaimProof
  createdAt : Time
  expiresAt : Time
  claimedAt : Option Time
  approvedAt : Option Time
  transferExpiresAt : Option Time
  completedAt : Option Time
  deriving DecidableEq, Repr

/-- What a reservation of a link answers. -/
structure DeviceLinkReservation where
  id : LinkID
  accountID : AccountID
  deviceID : DeviceID
  challenge : EnrollmentChallenge
  expiresAt : Time
  linkNonce : Bytes
  existingDeviceID : DeviceID
  existingSigningKey : Option Bytes
  deriving DecidableEq, Repr

/-- A device with its key material, as approvals and recoveries answer it. -/
structure EnrolledDevice where
  id : DeviceID
  accountID : AccountID
  name : String
  keyPackage : Bytes
  signingKey : Bytes
  createdAt : Time
  deriving DecidableEq, Repr

/-- The receipt of a completed link. -/
structure DeviceLinkCompletion where
  linkID : LinkID
  accountID : AccountID
  deviceID : DeviceID
  serverOrigin : String
  claimRequestHash : ClaimProof
  transcriptHash : Bytes
  initialSessionTokenHash : TokenHash
  completedAt : Time
  deriving DecidableEq, Repr

namespace DeviceLink

/-- The link waits for a claim or an approval. -/
def unapproved (link : DeviceLink) : Prop := link.state = .pending ∨ link.state = .claimed
  deriving Decidable

/-- `validWindow`: the deadline before approval, and the one of the transfer after it. -/
def validWindow (link : DeviceLink) (now : Time) : Prop :=
  (link.unapproved ∧ now < link.expiresAt) ∨
    ((link.state = .approved ∨ link.state = .consumed) ∧ ∃ approval ∈ link.approval, now < approval.transferExpiresAt)
  deriving Decidable

/-- The approver names the claim by its hash and its transcript. -/
def matchesClaim (link : DeviceLink) (requestHash : ClaimProof) (transcriptHash : Bytes) : Prop :=
  ∃ claim ∈ link.claim, claim.claimRequestHash = requestHash ∧ claim.transcriptHash = transcriptHash
  deriving Decidable

end DeviceLink

/-- `DeviceLinkV3ProofMessage`: what the new device signs. -/
def DeviceLinkClaimInput.proofMessage (input : DeviceLinkClaimInput) (config : Config)
    (link : DeviceLink) (reservation : LinkReservation) : Except StoreError ClaimProof := do
  require (input.protocolVersion = deviceLinkProtocol ∧ config.validOrigin input.serverOrigin ∧
    validV3Hash input.code ∧ validV3Hash input.reservationRequestID ∧ validV3Name input.deviceName ∧
    64 ≤ input.deviceKeyPackage.length ∧ input.deviceKeyPackage.length ≤ 48 * 1024 ∧
    input.signingKey.length = 32 ∧ input.transferPublicKey.length = 32 ∧
    input.transcriptHash.length = 32 ∧ input.claimTag.length = 32 ∧ validV3Hash input.claimTokenHash ∧
    validV3Hash input.deviceSecretHash ∧ validV3Hash input.initialSessionTokenHash)
    StoreError.enrollmentInvalid
  require (fitsLength (byteLength input.serverOrigin) ∧ fitsLength (byteLength link.id) ∧
    fitsLength (byteLength link.accountID) ∧ fitsLength (byteLength reservation.recipientDeviceID) ∧
    fitsLength reservation.challenge.encodedLength) StoreError.enrollmentInvalid
  pure {
    serverOrigin := input.serverOrigin
    code := input.code
    reservationRequestID := input.reservationRequestID
    linkID := link.id
    accountID := link.accountID
    deviceID := reservation.recipientDeviceID
    deviceName := input.deviceName
    challenge := reservation.challenge
    signingKey := input.signingKey
    keyPackage := input.deviceKeyPackage
    transferPublicKey := input.transferPublicKey
    transcriptHash := input.transcriptHash
    claimTag := input.claimTag
    claimTokenHash := input.claimTokenHash
    deviceSecretHash := input.deviceSecretHash
    initialSessionTokenHash := input.initialSessionTokenHash }

/-- The columns that the claim fills. -/
def DeviceLinkClaimInput.claim (input : DeviceLinkClaimInput) (hash : ClaimProof) (now : Time) : LinkClaim where
  deviceName := input.deviceName
  keyPackage := input.deviceKeyPackage
  signingKey := input.signingKey
  transferPublicKey := input.transferPublicKey
  transcriptHash := input.transcriptHash
  claimTag := input.claimTag
  claimTokenHash := input.claimTokenHash
  deviceSecretHash := input.deviceSecretHash
  initialSessionTokenHash := input.initialSessionTokenHash
  claimRequestHash := hash
  claimedAt := now

abbrev DeviceLinks := Table DeviceLink DeviceLink.id

/-- What a link request answers. -/
inductive LinkReply
  | link (view : DeviceLinkView)
  | reservation (reservation : DeviceLinkReservation)
  | cancelled
  deriving DecidableEq, Repr

namespace Database

/-- The conditions of `deviceLinkV3Select`. -/
def linkVisible (db : Database) (link : DeviceLink) : Prop :=
  db.store.activeAccount link.accountID ∧ db.store.unrevokedOf link.sourceDeviceID link.accountID ∧
    link.revokedAt = none ∧
    (link.unapproved ∨ ∃ deviceID ∈ link.recipientDeviceID, db.store.unrevokedOf deviceID link.accountID)
  deriving Decidable

/-- `loadDeviceLinkV3`. -/
def loadDeviceLink (db : Database) (p : DeviceLink → Prop) [DecidablePred p] : Except StoreError DeviceLink :=
  match db.links.rows.find? fun link => db.linkVisible link ∧ p link with
  | some link => .ok link
  | none => .error .deviceLinkInvalid

def signingKey (db : Database) (deviceID : DeviceID) : Option Bytes :=
  (db.accounts.deviceKeys.find? deviceID).bind (·.signingKey)

/-- `public`: the code is left out. -/
def publicLink (db : Database) (link : DeviceLink) : DeviceLinkView where
  id := link.id
  code := ""
  state := link.state
  accountID := link.accountID
  sourceDeviceID := link.sourceDeviceID
  serverOrigin := link.serverOrigin
  linkNonce := link.linkNonce
  existingSigningKey := db.signingKey link.sourceDeviceID
  recipientDeviceID := link.recipientDeviceID
  deviceName := link.claim.map (·.deviceName)
  signingKey := link.claim.map (·.signingKey)
  transferPublicKey := link.claim.map (·.transferPublicKey)
  transcriptHash := link.claim.map (·.transcriptHash)
  claimTag := link.claim.map (·.claimTag)
  approvalTag := link.approval.map (·.approvalTag)
  claimRequestHash := link.claim.map (·.claimRequestHash)
  createdAt := link.createdAt
  expiresAt := link.expiresAt
  claimedAt := link.claim.map (·.claimedAt)
  approvedAt := link.approval.map (·.approvedAt)
  transferExpiresAt := link.approval.map (·.transferExpiresAt)
  completedAt := link.completedAt

def pendingDeviceLinks (db : Database) (accountID : AccountID) (now : Time) : List DeviceLink :=
  db.links.rows.filter fun link =>
    link.accountID = accountID ∧ link.unapproved ∧ link.revokedAt = none ∧ now < link.expiresAt

/-- The time to live of a new link: whole seconds, at most half an hour, ten minutes by default. -/
def createTTL (ttl : ℤ) : Except StoreError Time := do
  require (0 ≤ ttl ∧ ttl ≤ 30 * minute ∧ ttl % second = 0) StoreError.invalidInput
  pure (if ttl = 0 then 10 * minute else ttl.toNat)

def newLink (id : LinkID) (linkNonce : Bytes) (accountID : AccountID) (deviceID : DeviceID)
    (code origin : String) (ttl now : Time) : DeviceLink :=
  { id, code, accountID, sourceDeviceID := deviceID, serverOrigin := origin, ttl, state := .pending,
    linkNonce, createdAt := now, expiresAt := now + ttl, reservation := none, claim := none,
    approval := none, completedAt := none, revokedAt := none, historyCancelledAt := none }

/-- Create a link, or return the one that the same device created with the same input. The number of
open links of the older protocol comes with the call. -/
def createDeviceLink (config : Config) (db : Database) (now : Time) (openLegacyLinks : ℕ) (id : LinkID)
    (linkNonce : Bytes) (accountID : AccountID) (deviceID : DeviceID) (code origin : String) (ttl : ℤ) :
    Except StoreError (DeviceLinkView × DeviceLinks) := do
  require (validV3Hash code ∧ config.validOrigin origin) StoreError.invalidInput
  let ttl ← createTTL ttl
  require (db.store.unrevokedOf deviceID accountID ∧ db.store.activeAccount accountID ∧
    ∃ key ∈ db.signingKey deviceID, key.length = 32) StoreError.unauthorized
  match db.loadDeviceLink (·.code = code) with
  | .ok existing =>
    require (existing.accountID = accountID ∧ existing.sourceDeviceID = deviceID ∧
      existing.serverOrigin = origin ∧ existing.ttl = ttl) StoreError.idempotencyConflict
    require (existing.validWindow now) StoreError.deviceLinkInvalid
    pure ({ db.publicLink existing with code }, db.links)
  | .error _ =>
    require (∀ link ∈ db.links, link.code ≠ code) StoreError.deviceLinkInvalid
    checkDevices config db accountID
    require (openLegacyLinks + (db.pendingDeviceLinks accountID now).length < pendingDeviceLinksPerAccount)
      StoreError.deviceLinkLimit
    let link := newLink id linkNonce accountID deviceID code origin ttl now
    match db.links.insert? link with
    | none => .error .uniqueConstraint
    | some links => pure ({ db.publicLink link with code }, links)

def linkReservation (db : Database) (link : DeviceLink) (reservation : LinkReservation) :
    DeviceLinkReservation where
  id := link.id
  accountID := link.accountID
  deviceID := reservation.recipientDeviceID
  challenge := reservation.challenge
  expiresAt := link.expiresAt
  linkNonce := link.linkNonce
  existingDeviceID := link.sourceDeviceID
  existingSigningKey := db.signingKey link.sourceDeviceID

/-- Reserve the id of the new device. The same request gets the same id again. -/
def reserveDeviceLink (db : Database) (now : Time) (newDeviceID : DeviceID) (nonce : Bytes)
    (code requestID : String) : Except StoreError (DeviceLinkReservation × DeviceLinks) := do
  require (validV3Hash code ∧ validV3Hash requestID) StoreError.enrollmentInvalid
  let link ← db.loadDeviceLink (·.code = code)
  require (now < link.expiresAt ∧ link.unapproved) StoreError.deviceLinkInvalid
  match link.reservation with
  | some reservation =>
    require (reservation.requestID = requestID) StoreError.idempotencyConflict
    pure (db.linkReservation link reservation, db.links)
  | none =>
    require (∀ other ∈ db.links, other.recipientDeviceID ≠ some newDeviceID) StoreError.uniqueConstraint
    let reservation : LinkReservation :=
      ⟨requestID, newDeviceID, ⟨link.id, link.accountID, newDeviceID, nonce⟩⟩
    pure (db.linkReservation link reservation,
      db.links.update (fun other => other.id = link.id ∧ other.reservation = none)
        fun other => { other with reservation := some reservation })

/-- Claim the link with the new device's signed key material. -/
def claimDeviceLink (config : Config) (db : Database) (now : Time) (input : DeviceLinkClaimInput) :
    Except StoreError (DeviceLinkView × DeviceLinks) := do
  let link ← db.loadDeviceLink fun link => link.id = input.enrollmentReservationID ∧ link.code = input.code
  let some reservation := link.reservation | .error .enrollmentInvalid
  require (link.validWindow now ∧ input.reservationRequestID = reservation.requestID ∧
    input.serverOrigin = link.serverOrigin) StoreError.enrollmentInvalid
  let hash ← input.proofMessage config link reservation
  require (input.challengeSignature.length = 64 ∧
    config.verifySignature input.signingKey hash input.challengeSignature) StoreError.enrollmentInvalid
  if link.state = .pending then
    require (input.claimTokenHash ≠ input.deviceSecretHash ∧
      input.claimTokenHash ≠ input.initialSessionTokenHash ∧
      input.deviceSecretHash ≠ input.initialSessionTokenHash) StoreError.enrollmentInvalid
    require (∀ other ∈ db.links, ∀ claim ∈ other.claim, claim.claimTokenHash ≠ input.claimTokenHash ∧
      claim.initialSessionTokenHash ≠ input.initialSessionTokenHash) StoreError.uniqueConstraint
    let claimed := { link with state := .claimed, claim := some (input.claim hash now) }
    pure (db.publicLink claimed,
      db.links.update (fun other => other.id = link.id ∧ other.state = .pending)
        fun other => { other with state := .claimed, claim := some (input.claim hash now) })
  else
    require (link.claim.map (·.claimRequestHash) = some hash) StoreError.idempotencyConflict
    pure (db.publicLink link, db.links)

def cancelDeviceLink (db : Database) (now : Time) (id : LinkID) (accountID : AccountID)
    (deviceID : DeviceID) : Except StoreError DeviceLinks := do
  let some link := db.links.find? id | .error .deviceLinkInvalid
  require (link.accountID = accountID ∧ link.sourceDeviceID = deviceID ∧
    db.store.activeAccount accountID ∧ db.store.unrevokedOf deviceID accountID)
    StoreError.deviceLinkInvalid
  if link.state = .revoked then pure db.links
  else
    require link.unapproved StoreError.idempotencyConflict
    pure (db.links.update (fun other => other.id = id ∧ other.unapproved)
      fun other => { other with state := .revoked, revokedAt := some now })

def claimedDevice (link : DeviceLink) (reservation : LinkReservation) (claim : LinkClaim)
    (createdAt : Time) : EnrolledDevice where
  id := reservation.recipientDeviceID
  accountID := link.accountID
  name := claim.deviceName
  keyPackage := claim.keyPackage
  signingKey := claim.signingKey
  createdAt

/-- Approve the claim that the hash and the transcript name: its device joins the account. An approved
link answers the same approval again, without an event. -/
def approveDeviceLink (config : Config) (db : Database) (now : Time) (keyPackageID : String) (id : LinkID)
    (accountID : AccountID) (sourceDeviceID : DeviceID) (requestHash : ClaimProof)
    (transcriptHash approvalTag : Bytes) :
    Except StoreError ((DeviceLinkView × EnrolledDevice × EventID) × Database) := do
  require (transcriptHash.length = 32 ∧ approvalTag.length = 32) StoreError.deviceLinkVerificationFailed
  let link ← db.loadDeviceLink fun link =>
    link.id = id ∧ link.accountID = accountID ∧ link.sourceDeviceID = sourceDeviceID
  require (link.validWindow now) StoreError.deviceLinkInvalid
  require (link.matchesClaim requestHash transcriptHash) StoreError.deviceLinkVerificationFailed
  let (some claim, some reservation) := (link.claim, link.reservation)
    | .error .deviceLinkVerificationFailed
  if link.state = .approved ∨ link.state = .consumed then
    let some approval := link.approval | .error .idempotencyConflict
    require (approval.approvalTag = approvalTag) StoreError.idempotencyConflict
    pure ((db.publicLink link, claimedDevice link reservation claim approval.approvedAt, 0), db)
  else
    require (link.state = .claimed ∧ now < link.expiresAt) StoreError.deviceLinkInvalid
    checkDevices config db accountID
    let (_, store) ← db.store.enrollDevice now accountID reservation.recipientDeviceID
    let db ← { db with store }.insertDeviceKeys now
      ⟨reservation.recipientDeviceID, claim.deviceName, claim.keyPackage, claim.signingKey,
        claim.deviceSecretHash, keyPackageID⟩
    let approval : LinkApproval := ⟨approvalTag, now, now + deviceLinkTransferLifetime⟩
    let links := db.links.update (fun other => other.id = id ∧ other.state = .claimed)
      fun other => { other with state := .approved, approval := some approval }
    let (eventID, store) := db.store.insertSyncEvent .deviceUpdated (some accountID) none
      (.device reservation.recipientDeviceID) now
    let db := { db with store, links }
    pure ((db.publicLink { link with state := .approved, approval := some approval },
      claimedDevice link reservation claim now, eventID), db)

/-- The initial session is still the current one of its row, and valid. -/
def initialSessionValid (config : Config) (db : Database) (tokenHash : TokenHash) (accountID : AccountID)
    (deviceID : DeviceID) (now : Time) : Prop :=
  ∃ s ∈ db.sessions, s.tokenHash = tokenHash ∧ s.accountID = accountID ∧ s.deviceID = some deviceID ∧
    db.store.unrevokedOf deviceID accountID ∧ db.sessionValidity config s now
  deriving Decidable

/-- Complete an approved link with the session that its claim fixed. A consumed link answers again
while that session is there. -/
def completeDeviceLink (config : Config) (db : Database) (now : Time) (id : LinkID)
    (claimTokenHash : TokenHash) (requestHash : ClaimProof) (initialSessionHash : TokenHash)
    (transcriptHash : Bytes) : Except StoreError ((DeviceLinkCompletion × Bytes) × Database) := do
  require (validV3Hash claimTokenHash ∧ validV3Hash initialSessionHash ∧ transcriptHash.length = 32)
    StoreError.deviceLinkVerificationFailed
  let link ← db.loadDeviceLink fun link =>
    link.id = id ∧ ∃ claim ∈ link.claim, claim.claimTokenHash = claimTokenHash
  require (link.validWindow now) StoreError.deviceLinkInvalid
  require (link.matchesClaim requestHash transcriptHash ∧
    link.claim.map (·.initialSessionTokenHash) = some initialSessionHash)
    StoreError.deviceLinkVerificationFailed
  require (link.state ≠ .claimed) StoreError.deviceLinkNotReady
  let (some reservation, some approval) := (link.reservation, link.approval) | .error .deviceLinkInvalid
  let receipt (completedAt : Time) : DeviceLinkCompletion :=
    { linkID := id, accountID := link.accountID, deviceID := reservation.recipientDeviceID,
      serverOrigin := link.serverOrigin, claimRequestHash := requestHash, transcriptHash,
      initialSessionTokenHash := initialSessionHash, completedAt }
  match link.state with
  | .approved =>
    require (now < link.expiresAt) StoreError.deviceLinkInvalid
    let sessions ← db.insertSession (config.newSession now initialSessionHash link.accountID
      reservation.recipientDeviceID (some now) none)
    let links := db.links.update (fun other => other.id = id ∧ other.state = .approved)
      fun other => { other with state := .consumed, completedAt := some now }
    pure ((receipt now, approval.approvalTag), { db with sessions, links })
  | .consumed =>
    require (db.initialSessionValid config initialSessionHash link.accountID
      reservation.recipientDeviceID now) StoreError.deviceLinkSessionUnavailable
    let some completedAt := link.completedAt | .error .deviceLinkInvalid
    pure ((receipt completedAt, approval.approvalTag), db)
  | _ => .error .deviceLinkInvalid

end Database

/-- The requests that write links only. -/
inductive LinkRequest
  | create (openLegacyLinks : ℕ) (id : LinkID) (linkNonce : Bytes) (accountID : AccountID)
      (deviceID : DeviceID) (code origin : String) (ttl : ℤ)
  | reserve (newDeviceID : DeviceID) (nonce : Bytes) (code requestID : String)
  | claim (input : DeviceLinkClaimInput)
  | cancel (id : LinkID) (accountID : AccountID) (deviceID : DeviceID)

def Database.linkStep (config : Config) (db : Database) (now : Time) :
    LinkRequest → Except StoreError (LinkReply × DeviceLinks)
  | .create openLegacyLinks id linkNonce accountID deviceID code origin ttl =>
    (createDeviceLink config db now openLegacyLinks id linkNonce accountID deviceID code origin ttl).map
      fun (view, links) => (.link view, links)
  | .reserve newDeviceID nonce code requestID =>
    (db.reserveDeviceLink now newDeviceID nonce code requestID).map
      fun (reservation, links) => (.reservation reservation, links)
  | .claim input => (claimDeviceLink config db now input).map fun (view, links) => (.link view, links)
  | .cancel id accountID deviceID => (db.cancelDeviceLink now id accountID deviceID).map (.cancelled, ·)

end Veritra.Storage
