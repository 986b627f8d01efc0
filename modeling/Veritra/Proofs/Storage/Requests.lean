import Veritra.Proofs.Storage.Retire

/-! # What a committed request has done

One lemma for each operation that writes several tables: the checks that a commit has passed, and the
database it leaves. The per-table results read these instead of the operations.
-/

namespace Veritra.Storage

open Relational Machine

namespace Database

variable {id keyPackageID : String} {kind : ReservationKind} {request : RecoveryRequest}
  {accountID : AccountID} {link : DeviceLink} {requestHash : ClaimProof} {transcriptHash : Bytes}
  {claimTokenHash sessionTokenHash : TokenHash} {hash : PasswordHash} {config : Config} {db next : Database}
  {now : Time} {id : LinkID}

theorem insertSession_ok {session : Session} {sessions : Sessions}
    (ok : db.insertSession session = .ok sessions) : db.sessions.insert? session = some sessions := by
  have ok := of_require ok
  split at ok
  · cases ok
  · next inserted =>
    cases ok
    exact inserted

def initialKeyPackage (device : NewDevice) (now : Time) : NewDeviceKeyPackage :=
  ⟨device.keyPackageID, device.keyPackage, openMLSCiphersuite, now + 30 * day⟩

def NewDevice.keys (device : NewDevice) : DeviceKeys :=
  ⟨device.id, device.name, device.keyPackage, some device.signingKey, some device.authSecretHash, none⟩

/-- The rows that a new device brings next to its device row. -/
structure DeviceKeysInserted (db : Database) (now : Time) (device : NewDevice)
    (deviceKeys : Table DeviceKeys DeviceKeys.deviceID) (keyPackages : KeyPackages) : Prop where
  keys : db.accounts.deviceKeys.insert? (NewDevice.keys device) = some deviceKeys
  packages : KeyPackages.insertEach db.keyPackages device.id now [initialKeyPackage device now] = .ok keyPackages

theorem insertDeviceKeys_ok {device : NewDevice} (ok : db.insertDeviceKeys now device = .ok next) :
    ∃ deviceKeys keyPackages, DeviceKeysInserted db now device deviceKeys keyPackages ∧
      next = { db with accounts := { db.accounts with deviceKeys }, keyPackages } := by
  unfold insertDeviceKeys at ok
  split at ok
  · cases ok
  · next deviceKeys inserted =>
    obtain ⟨keyPackages, stored, ok⟩ := bind_eq_ok.mp ok
    cases ok
    exact ⟨deviceKeys, keyPackages, ⟨inserted, stored⟩, rfl⟩

theorem reserveStep_ok {request : ReserveRequest} {accounts : AccountTables}
    (served : db.reserveStep now request = .ok accounts) :
    ∃ reservations, accounts = { db.accounts with reservations } := by
  have created : ∀ {kind id accountID deviceID},
      db.createEnrollmentReservation now kind id accountID deviceID = .ok accounts →
        ∃ reservations, accounts = { db.accounts with reservations } := by
    intro kind id accountID deviceID created
    unfold createEnrollmentReservation at created
    split at created <;> cases created
    exact ⟨_, rfl⟩
  cases request with
  | owner => exact created (require_ok.mp served).2
  | registration => exact created served
  | recovery => exact created served

def consumed (db : Database) (now : Time) (id : String) :
    Table EnrollmentReservation EnrollmentReservation.id :=
  db.accounts.reservations.update (fun r => r.id = id ∧ r.consumedAt = none ∧ now < r.expiresAt)
    (fun r => { r with consumedAt := some now }) (kept EnrollmentReservation.id)

def RegisterInput.device (input : RegisterInput) (deviceID : DeviceID) : NewDevice :=
  ⟨deviceID, trimSpace input.deviceName, input.keyPackage, input.signingKey, input.deviceAuthHash, input.keyPackageID⟩

/-- A committed registration. -/
structure Registered (config : Config) (db : Database) (now : Time) (role : Role) (input : RegisterInput)
    (reservation : EnrollmentReservation) (store : Store)
    (credentials : IndexedTable Credentials Credentials.accountID Credentials.username)
    (deviceKeys : Table DeviceKeys DeviceKeys.deviceID) (keyPackages : KeyPackages)
    (sessions : Sessions) : Prop where
  login : db.accounts.credentials.insert?
    ⟨reservation.accountID, input.username, some input.passwordHash⟩ = some credentials
  registered : db.store.registerAccount now reservation.accountID role reservation.deviceID = .ok ((), store)
  device : DeviceKeysInserted db now (RegisterInput.device input reservation.deviceID) deviceKeys keyPackages
  session : if input.sessionHash = "" then sessions = db.sessions
    else db.sessions.insert? (config.newSession now input.sessionHash reservation.accountID
      reservation.deviceID (some now) input.sessionExpiry) = some sessions

theorem registerReserved_ok {role : Role} {input : RegisterInput}
    (ok : registerReserved config db now kind role input = .ok next) :
    ∃ reservation store credentials deviceKeys keyPackages sessions,
      Registered config db now role input reservation store credentials deviceKeys keyPackages sessions ∧
      next = { db with
        store, keyPackages, sessions
        accounts := { db.accounts with
          credentials, deviceKeys, reservations := db.consumed now reservation.id } } := by
  obtain ⟨reservation, -, ok⟩ := bind_eq_ok.mp ok
  split at ok
  · cases ok
  · next credentials inserted =>
    obtain ⟨⟨⟨⟩, store⟩, registered, ok⟩ := bind_eq_ok.mp ok
    obtain ⟨middle, keyed, ok⟩ := bind_eq_ok.mp ok
    obtain ⟨deviceKeys, keyPackages, device, rfl⟩ := insertDeviceKeys_ok keyed
    obtain ⟨sessions, session, ok⟩ := bind_eq_ok.mp ok
    cases ok
    refine ⟨reservation, store, credentials, deviceKeys, keyPackages, sessions,
      ⟨inserted, registered, ⟨device.keys, device.packages⟩, ?_⟩, rfl⟩
    unfold firstSession at session
    split at session
    · next blank =>
      cases session
      exact if_pos blank ▸ rfl
    · next given =>
      have inserted := insertSession_ok session
      rw [if_neg given]
      exact inserted

theorem approveLegacyDeviceLink_ok {device : NewDevice} {withSyncEvent : Bool}
    (ok : approveLegacyDeviceLink config db now accountID device withSyncEvent = .ok next) :
    ∃ store deviceKeys keyPackages, db.store.enrollDevice now accountID device.id = .ok ((), store) ∧
      DeviceKeysInserted db now device deviceKeys keyPackages ∧
      next = { db with
        store := if withSyncEvent then
          (store.insertSyncEvent .deviceUpdated (some accountID) none (.device device.id) now).2 else store
        keyPackages
        accounts := { db.accounts with deviceKeys } } := by
  obtain ⟨-, -, ok⟩ := bind_eq_ok.mp ok
  obtain ⟨⟨⟨⟩, store⟩, enrolled, ok⟩ := bind_eq_ok.mp ok
  obtain ⟨middle, keyed, ok⟩ := bind_eq_ok.mp ok
  obtain ⟨deviceKeys, keyPackages, inserted, rfl⟩ := insertDeviceKeys_ok keyed
  refine ⟨store, deviceKeys, keyPackages, enrolled, ⟨inserted.keys, inserted.packages⟩, ?_⟩
  cases withSyncEvent <;> cases ok <;> rfl

theorem loadDeviceLink_ok {p : DeviceLink → Prop} [DecidablePred p]
    (loaded : db.loadDeviceLink p = .ok link) : link ∈ db.links ∧ db.linkVisible link ∧ p link := by
  unfold loadDeviceLink at loaded
  split at loaded
  · next found =>
    cases loaded
    have holds := List.find?_some found
    exact ⟨List.mem_of_find?_eq_some found, of_decide_eq_true holds⟩
  · cases loaded

/-- The claim that an approval names. -/
structure ClaimChecked (db : Database) (now : Time) (id : LinkID) (requestHash : ClaimProof)
    (transcriptHash : Bytes) (link : DeviceLink) (reservation : LinkReservation) (claim : LinkClaim) :
    Prop where
  member : link ∈ db.links
  visible : db.linkVisible link
  id : link.id = id
  window : link.validWindow now
  reserved : link.reservation = some reservation
  claimed : link.claim = some claim
  hash : claim.claimRequestHash = requestHash
  transcript : claim.transcriptHash = transcriptHash

theorem matchesClaim_iff {claim : LinkClaim} (claimed : link.claim = some claim) :
    link.matchesClaim requestHash transcriptHash ↔
      claim.claimRequestHash = requestHash ∧ claim.transcriptHash = transcriptHash := by
  simp [DeviceLink.matchesClaim, claimed]

/-- The device that a claim describes, as it is enrolled. -/
def newDevice (reservation : LinkReservation) (claim : LinkClaim) (keyPackageID : String) : NewDevice :=
  ⟨reservation.recipientDeviceID, claim.deviceName, claim.keyPackage, claim.signingKey,
    claim.deviceSecretHash, keyPackageID⟩

def approvedLinks (db : Database) (id : LinkID) (approval : LinkApproval) : DeviceLinks :=
  db.links.update (fun other => other.id = id ∧ other.state = .claimed)
    fun other => { other with state := .approved, approval := some approval }

def approvedDatabase (db : Database) (now : Time) (id : LinkID) (accountID : AccountID)
    (approvalTag : Bytes) (deviceID : DeviceID) (store : Store)
    (deviceKeys : Table DeviceKeys DeviceKeys.deviceID) (keyPackages : KeyPackages) : Database :=
  { db with
    store := (store.insertSyncEvent .deviceUpdated (some accountID) none (.device deviceID) now).2
    accounts := { db.accounts with deviceKeys }
    keyPackages
    links := db.approvedLinks id ⟨approvalTag, now, now + deviceLinkTransferLifetime⟩ }

/-- What a committed approval did: it was a repetition, or it enrolled the claimed device. -/
inductive ApproveOutcome (db : Database) (now : Time) (keyPackageID : String) (id : LinkID)
    (accountID : AccountID) (approvalTag : Bytes) (link : DeviceLink) (reservation : LinkReservation)
    (claim : LinkClaim) : DeviceLinkView × EnrolledDevice × EventID → Database → Prop
  | repeated {approval : LinkApproval} (state : link.state = .approved ∨ link.state = .consumed)
      (approved : link.approval = some approval) (tag : approval.approvalTag = approvalTag) :
      ApproveOutcome db now keyPackageID id accountID approvalTag link reservation claim
        (db.publicLink link, claimedDevice link reservation claim approval.approvedAt, 0) db
  | approved {store : Store} {deviceKeys : Table DeviceKeys DeviceKeys.deviceID}
      {keyPackages : KeyPackages} {eventID : EventID}
      (state : link.state = .claimed) (early : now < link.expiresAt)
      (enrolled : db.store.enrollDevice now accountID reservation.recipientDeviceID = .ok ((), store))
      (device : DeviceKeysInserted db now (newDevice reservation claim keyPackageID) deviceKeys keyPackages) :
      ApproveOutcome db now keyPackageID id accountID approvalTag link reservation claim
        ((db.approvedDatabase now id accountID approvalTag reservation.recipientDeviceID store deviceKeys
          keyPackages).publicLink { link with
            state := .approved, approval := some ⟨approvalTag, now, now + deviceLinkTransferLifetime⟩ },
          claimedDevice link reservation claim now, eventID)
        (db.approvedDatabase now id accountID approvalTag reservation.recipientDeviceID store deviceKeys
          keyPackages)

theorem approveDeviceLink_ok {sourceDeviceID : DeviceID} {approvalTag : Bytes}
    {answer : DeviceLinkView × EnrolledDevice × EventID}
    (ok : approveDeviceLink config db now keyPackageID id accountID sourceDeviceID requestHash
      transcriptHash approvalTag = .ok (answer, next)) :
    ∃ link reservation claim, ClaimChecked db now id requestHash transcriptHash link reservation claim ∧
      link.accountID = accountID ∧ link.sourceDeviceID = sourceDeviceID ∧
      ApproveOutcome db now keyPackageID id accountID approvalTag link reservation claim answer next := by
  have ok := of_require ok
  obtain ⟨link, loaded, ok⟩ := bind_eq_ok.mp ok
  obtain ⟨window, ok⟩ := require_ok.mp ok
  obtain ⟨named, ok⟩ := require_ok.mp ok
  obtain ⟨mem, visible, sameID, sameAccount, sameSource⟩ := loadDeviceLink_ok loaded
  split at ok
  · next claim reservation found =>
    obtain ⟨claimed, reserved⟩ := Prod.mk.inj found
    obtain ⟨hash, transcript⟩ := (matchesClaim_iff claimed).mp named
    refine ⟨link, reservation, claim, ⟨mem, visible, sameID, window, reserved, claimed, hash, transcript⟩,
      sameAccount, sameSource, ?_⟩
    split at ok
    · next state =>
      split at ok
      · next approval approved =>
        obtain ⟨tag, ok⟩ := require_ok.mp ok
        cases ok
        exact .repeated state approved tag
      · cases ok
    · obtain ⟨⟨state, early⟩, ok⟩ := require_ok.mp ok
      obtain ⟨-, -, ok⟩ := bind_eq_ok.mp ok
      obtain ⟨⟨⟨⟩, store⟩, enrolled, ok⟩ := bind_eq_ok.mp ok
      obtain ⟨middle, keyed, ok⟩ := bind_eq_ok.mp ok
      obtain ⟨deviceKeys, keyPackages, inserted, rfl⟩ := insertDeviceKeys_ok keyed
      cases ok
      exact .approved state early enrolled ⟨inserted.keys, inserted.packages⟩
  · cases ok

def completionReceipt (link : DeviceLink) (reservation : LinkReservation) (claim : LinkClaim)
    (completedAt : Time) : DeviceLinkCompletion where
  linkID := link.id
  accountID := link.accountID
  deviceID := reservation.recipientDeviceID
  serverOrigin := link.serverOrigin
  claimRequestHash := claim.claimRequestHash
  transcriptHash := claim.transcriptHash
  initialSessionTokenHash := claim.initialSessionTokenHash
  completedAt

def initialSession (config : Config) (now : Time) (link : DeviceLink) (reservation : LinkReservation)
    (claim : LinkClaim) : Session :=
  config.newSession now claim.initialSessionTokenHash link.accountID reservation.recipientDeviceID
    (some now) none

def completedLinks (db : Database) (id : LinkID) (now : Time) : DeviceLinks :=
  db.links.update (fun other => other.id = id ∧ other.state = .approved)
    (fun other => { other with state := .consumed, completedAt := some now }) (kept DeviceLink.id)

/-- What a committed completion did: it started the session that the claim fixed, or it was a
repetition while that session is valid. -/
inductive CompleteOutcome (config : Config) (db : Database) (now : Time) (link : DeviceLink)
    (reservation : LinkReservation) (claim : LinkClaim) (approval : LinkApproval) :
    DeviceLinkCompletion × Bytes → Database → Prop
  | completed {sessions : Sessions} (state : link.state = .approved) (early : now < link.expiresAt)
      (started : db.sessions.insert? (initialSession config now link reservation claim) = some sessions) :
      CompleteOutcome config db now link reservation claim approval
        (completionReceipt link reservation claim now, approval.approvalTag)
        { db with sessions, links := db.completedLinks link.id now }
  | repeated {completedAt : Time} (state : link.state = .consumed)
      (valid : db.initialSessionValid config claim.initialSessionTokenHash link.accountID
        reservation.recipientDeviceID now) (completed : link.completedAt = some completedAt) :
      CompleteOutcome config db now link reservation claim approval
        (completionReceipt link reservation claim completedAt, approval.approvalTag) db

theorem completeDeviceLink_ok {initialSessionHash : TokenHash} {answer : DeviceLinkCompletion × Bytes}
    (ok : completeDeviceLink config db now id claimTokenHash requestHash initialSessionHash
      transcriptHash = .ok (answer, next)) :
    ∃ link reservation claim approval,
      ClaimChecked db now id requestHash transcriptHash link reservation claim ∧
      claim.claimTokenHash = claimTokenHash ∧ claim.initialSessionTokenHash = initialSessionHash ∧
      link.approval = some approval ∧
      CompleteOutcome config db now link reservation claim approval answer next := by
  have ok := of_require ok
  obtain ⟨link, loaded, ok⟩ := bind_eq_ok.mp ok
  obtain ⟨window, ok⟩ := require_ok.mp ok
  obtain ⟨⟨named, sessionHash⟩, ok⟩ := require_ok.mp ok
  have ok := of_require ok
  obtain ⟨mem, visible, rfl, claim, claimed, token⟩ := loadDeviceLink_ok loaded
  obtain ⟨rfl, rfl⟩ := (matchesClaim_iff claimed).mp named
  rw [claimed] at sessionHash
  cases Option.some.inj sessionHash
  split at ok
  · next reservation approval found =>
    obtain ⟨reserved, approved⟩ := Prod.mk.inj found
    refine ⟨link, reservation, claim, approval,
      ⟨mem, visible, rfl, window, reserved, claimed, rfl, rfl⟩, token, rfl, approved, ?_⟩
    split at ok
    · next state =>
      obtain ⟨early, ok⟩ := require_ok.mp ok
      obtain ⟨sessions, inserted, ok⟩ := bind_eq_ok.mp ok
      have started := insertSession_ok inserted
      cases ok
      exact .completed state early started
    · next state =>
      obtain ⟨valid, ok⟩ := require_ok.mp ok
      split at ok
      · next completedAt completed =>
        cases ok
        exact .repeated state valid completed
      · cases ok
    · cases ok
  · cases ok

/-- The recovery requests after the account's waiting one is cancelled. -/
def cancelledRecoveries (db : Database) (accountID : AccountID) :
    Table RecoveryRequest RecoveryRequest.id :=
  match db.recoveries.rows.find? fun r => r.accountID = accountID ∧ r.state = .waiting with
  | none => db.recoveries
  | some request => db.recoveries.update (fun r => r.id = request.id ∧ r.state = .waiting)
    (fun r => { r with state := .cancelled }) (kept RecoveryRequest.id)

theorem cancelWaitingRecovery_eq (db : Database) (accountID : AccountID) (now : Time) :
    ∃ events, db.cancelWaitingRecovery accountID now = { db with
        store := { db.store with events }
        recoveries := db.cancelledRecoveries accountID } := by
  unfold cancelWaitingRecovery cancelledRecoveries
  cases db.recoveries.rows.find? fun r => r.accountID = accountID ∧ r.state = .waiting with
  | none => exact ⟨db.store.events, rfl⟩
  | some request => exact ⟨_, rfl⟩

/-- The sessions that a password change leaves. -/
def keptSessions (db : Database) (now : Time) (accountID : AccountID) (keepTokenHash : TokenHash) :
    Sessions :=
  (db.sessions.delete fun s => s.accountID = accountID ∧ s.tokenHash ≠ keepTokenHash).update
    (·.tokenHash = keepTokenHash) (fun s => { s.dropPrevious with recentAuthAt := some now }) (kept Session.tokenHash)

/-- The account columns after the password is set. -/
def passwordAccounts (db : Database) (accountID : AccountID) (hash : PasswordHash) : AccountTables :=
  (db.setPasswordHash accountID hash).accounts

theorem changePassword_ok {keepTokenHash : TokenHash}
    (ok : db.changePassword now accountID keepTokenHash hash = .ok next) :
    db.undeleted accountID ∧ ∃ events, next = { db with
        store := { db.store with events }
        accounts := db.passwordAccounts accountID hash
        sessions := db.keptSessions now accountID keepTokenHash
        recoveries := db.cancelledRecoveries accountID } := by
  obtain ⟨undeleted, ok⟩ := require_ok.mp ok
  have changed := pure_eq_ok.mp ok
  obtain ⟨events, cancelled⟩ := cancelWaitingRecovery_eq
    { db.setPasswordHash accountID hash with sessions := db.keptSessions now accountID keepTokenHash }
    accountID now
  exact ⟨undeleted, events, changed.symm.trans cancelled⟩

theorem resetOwnerPassword_ok {username : String}
    (ok : db.resetOwnerPassword now username hash = .ok next) :
    ∃ c ∈ db.accounts.credentials, c.username = username ∧ ∃ events, next = { db with
        store := { db.store with events }
        accounts := db.passwordAccounts c.accountID hash
        sessions := db.sessions.delete (·.accountID = c.accountID)
        recoveries := db.cancelledRecoveries c.accountID } := by
  unfold resetOwnerPassword at ok
  split at ok
  · next c found =>
    have ok := of_require ok
    have changed := pure_eq_ok.mp ok
    obtain ⟨mem, named⟩ := IndexedTable.findIndex?_eq_some.mp found
    obtain ⟨events, cancelled⟩ := cancelWaitingRecovery_eq
      { db.setPasswordHash c.accountID hash with
        sessions := db.sessions.delete (·.accountID = c.accountID) } c.accountID now
    exact ⟨c, mem, named, events, changed.symm.trans cancelled⟩
  · cases ok

/-- The recovery requests after their verified hash is upgraded. -/
def upgradedRecoveries (db : Database) (accountID : AccountID) (currentHash updatedHash : PasswordHash) :
    Table RecoveryRequest RecoveryRequest.id :=
  db.recoveries.update
    (fun r => r.accountID = accountID ∧ r.state = .waiting ∧ r.verifiedPasswordHash = currentHash)
    fun r => { r with verifiedPasswordHash := updatedHash }

theorem upgradePasswordHash_cases (db : Database) (accountID : AccountID) (currentHash : PasswordHash)
    (salt : String) :
    db.upgradePasswordHash accountID currentHash salt = db ∨ (db.hasPasswordHash accountID currentHash ∧
        db.upgradePasswordHash accountID currentHash salt = { db with
            accounts := db.passwordAccounts accountID { currentHash with salt }
            recoveries := db.upgradedRecoveries accountID currentHash { currentHash with salt } }) := by
  unfold upgradePasswordHash
  dsimp only
  split
  · next current => exact .inr ⟨current.1, rfl⟩
  · exact .inl rfl

/-- A committed claim of a recovery. -/
structure RecoveryClaimed (config : Config) (db : Database) (now : Time) (input : RecoveryClaimInput)
    (reservation : EnrollmentReservation) (request : RecoveryRequest) (active : Bool) : Prop where
  seen : active = decide (db.activeDeviceSeen config input.accountID input.activeWindow now)
  stored : ∃ id, request = input.request id reservation.deviceID now
    (if active then now + input.wait else now)
  free : ∀ r ∈ db.cancelledRecoveries input.accountID, r.deviceID ≠ request.deviceID ∧
    r.claimTokenHash ≠ request.claimTokenHash ∧ ¬ (r.accountID = request.accountID ∧ r.state = .waiting)

theorem claimRecovery_ok {input : RecoveryClaimInput} {active : Bool}
    (ok : claimRecovery config db now id input = .ok ((request, active), next)) :
    ∃ reservation, RecoveryClaimed config db now input reservation request active ∧ request.id = id ∧
      ∃ events recoveries, (db.cancelledRecoveries input.accountID).insert? request = some recoveries ∧
        next = { db with
          store := { db.store with events }
          accounts := { db.accounts with reservations := db.consumed now reservation.id }
          recoveries } := by
  obtain ⟨reservation, -, ok⟩ := bind_eq_ok.mp ok
  have ok := of_require ok
  have ok := of_require ok
  obtain ⟨events, cancelled⟩ :=
    cancelWaitingRecovery_eq (db.consumeEnrollmentReservation now reservation.id) input.accountID now
  dsimp only at ok
  rw [cancelled] at ok
  obtain ⟨free, ok⟩ := require_ok.mp ok
  split at ok
  · cases ok
  · next recoveries inserted =>
    cases ok
    exact ⟨reservation, ⟨rfl, ⟨id, rfl⟩, free⟩, rfl, _, recoveries, inserted, rfl⟩

def oldDevices (db : Database) (accountID : AccountID) : List DeviceID :=
  db.store.accountDeviceIDs accountID (·.revokedAt = none)

/-- The database without the links of the account's unrevoked devices. -/
def withoutLinks (db : Database) (now : Time) (accountID : AccountID) : Database :=
  (db.oldDevices accountID).foldl
    (fun db deviceID => db.retireDeviceLinksForDevice accountID deviceID now) db

theorem withoutLinks_retires (db : Database) (now : Time) (accountID : AccountID) :
    Retires db (db.withoutLinks now accountID) :=
  db.retireEachDevice_retires accountID now (db.oldDevices accountID)

def remainingSessions (db : Database) (accountID : AccountID) : Sessions :=
  db.sessions.delete fun s => (∃ deviceID ∈ db.oldDevices accountID, s.deviceID = some deviceID) ∨
    (s.accountID = accountID ∧ s.deviceID = none)

def recoveredDevice (request : RecoveryRequest) (keyPackageID : String) : NewDevice :=
  ⟨request.deviceID, request.deviceName, request.keyPackage, request.signingKey, request.deviceAuthHash, keyPackageID⟩

/-- The account's devices are replaced by the one of the request. -/
structure DevicesRecovered (config : Config) (db : Database) (now : Time) (request : RecoveryRequest)
    (keyPackageID : String) (sessionTokenHash : TokenHash) (store : Store)
    (deviceKeys : Table DeviceKeys DeviceKeys.deviceID) (keyPackages : KeyPackages)
    (sessions : Sessions) : Prop where
  revoked : ∃ eventID, (db.withoutLinks now request.accountID).store.completeRecovery now
    request.accountID request.deviceID = .ok (eventID, store)
  device : DeviceKeysInserted db now (recoveredDevice request keyPackageID) deviceKeys keyPackages
  session : (db.remainingSessions request.accountID).insert?
    (config.newSession now sessionTokenHash request.accountID request.deviceID none none) = some sessions

theorem recoverDevices_ok {revoked : List DeviceID}
    (ok : recoverDevices config db now request keyPackageID sessionTokenHash = .ok (revoked, next)) :
    revoked = db.oldDevices request.accountID ∧ ∃ store deviceKeys keyPackages sessions,
      DevicesRecovered config db now request keyPackageID sessionTokenHash store deviceKeys keyPackages
        sessions ∧
      next = { db.withoutLinks now request.accountID with
        store, keyPackages, sessions, accounts := { db.accounts with deviceKeys } } := by
  obtain ⟨⟨eventID, store⟩, recovered, ok⟩ := bind_eq_ok.mp ok
  obtain ⟨middle, keyed, ok⟩ := bind_eq_ok.mp ok
  obtain ⟨deviceKeys, keyPackages, inserted, rfl⟩ := insertDeviceKeys_ok keyed
  obtain ⟨sessions, started, ok⟩ := bind_eq_ok.mp ok
  have session := insertSession_ok started
  cases ok
  have retires := db.withoutLinks_retires now request.accountID
  refine ⟨rfl, store, deviceKeys, keyPackages, sessions, ⟨⟨eventID, recovered⟩, ?_, ?_⟩, ?_⟩
  · exact ⟨retires.accounts ▸ inserted.keys, retires.keyPackages ▸ inserted.packages⟩
  · unfold remainingSessions
    rw [← retires.sessions]
    exact session
  · rw [← retires.accounts]
    rfl

def closedRecoveries (recoveries : Table RecoveryRequest RecoveryRequest.id) (id : String)
    (state : RecoveryState) (completedAt : Option Time) : Table RecoveryRequest RecoveryRequest.id :=
  recoveries.update (fun r => r.id = id ∧ r.state = .waiting) (fun r => { r with state, completedAt })
    (kept RecoveryRequest.id)

/-- What the holder of a claim token was answered, and what that did. -/
inductive CompleteRecoveryOutcome (config : Config) (db : Database) (now : Time) (keyPackageID : String)
    (sessionTokenHash : TokenHash) (request : RecoveryRequest) : RecoveryReply → Database → Prop
  | repeated (state : request.state = .completed) :
      CompleteRecoveryOutcome config db now keyPackageID sessionTokenHash request
        (.completed request.accountID request.deviceID false []) db
  | waiting (state : request.state = .waiting) (early : now < request.readyAt) :
      CompleteRecoveryOutcome config db now keyPackageID sessionTokenHash request
        (.waiting request.readyAt) db
  | closed {final : RecoveryState} (state : request.state = .waiting)
      (refused : final = .expired ∨ final = .cancelled) :
      CompleteRecoveryOutcome config db now keyPackageID sessionTokenHash request .cancelled
        { db with recoveries := closedRecoveries db.recoveries request.id final none }
  | completed {store : Store} {deviceKeys : Table DeviceKeys DeviceKeys.deviceID}
      {keyPackages : KeyPackages} {sessions : Sessions} (state : request.state = .waiting)
      (ready : request.readyAt ≤ now) (unexpired : now < request.expiresAt)
      (accountActive : db.store.activeAccount request.accountID)
      (password : db.hasPasswordHash request.accountID request.verifiedPasswordHash)
      (recoveryKey : db.hasRecoveryKey request.accountID request.verifiedAuthKey)
      (recovered : DevicesRecovered config db now request keyPackageID sessionTokenHash store deviceKeys
        keyPackages sessions) :
      CompleteRecoveryOutcome config db now keyPackageID sessionTokenHash request
        (.completed request.accountID request.deviceID true (db.oldDevices request.accountID))
        { db.withoutLinks now request.accountID with
          store, keyPackages, sessions
          accounts := { db.accounts with deviceKeys }
          recoveries := closedRecoveries db.recoveries request.id .completed (some now) }

theorem completeRecovery_ok {reply : RecoveryReply}
    (ok : completeRecovery config db now keyPackageID id claimTokenHash sessionTokenHash = .ok (reply, next)) :
    ∃ request ∈ db.recoveries, request.id = trimSpace id ∧ request.claimTokenHash = claimTokenHash ∧
      CompleteRecoveryOutcome config db now keyPackageID sessionTokenHash request reply next := by
  unfold completeRecovery at ok
  split at ok
  swap
  · cases ok
  next request found =>
  obtain ⟨token, ok⟩ := require_ok.mp ok
  obtain ⟨mem, same⟩ := Table.find?_eq_some.mp found
  refine ⟨request, mem, same, token, ?_⟩
  split at ok
  · next state =>
    cases ok
    exact .repeated state
  · next state =>
    split at ok
    · cases ok
      exact .closed state (.inl rfl)
    next unexpired =>
    split at ok
    · next early =>
      cases ok
      exact .waiting state early
    next ready =>
    split at ok
    · cases ok
    next accountActive =>
    split at ok
    · cases ok
      exact .closed state (.inr rfl)
    next current =>
    obtain ⟨password, recoveryKey⟩ := not_not.mp current
    obtain ⟨⟨revoked, middle⟩, restored, ok⟩ := bind_eq_ok.mp ok
    obtain ⟨rfl, store, deviceKeys, keyPackages, sessions, recovered, rfl⟩ := recoverDevices_ok restored
    cases ok
    have closed := CompleteRecoveryOutcome.completed state (not_lt.mp ready) (not_le.mp unexpired)
      (not_not.mp accountActive) password recoveryKey recovered
    rw [← (db.withoutLinks_retires now request.accountID).recoveries] at closed
    exact closed
  · cases ok

theorem cancelRecoveryRequest_ok (ok : db.cancelRecoveryRequest now accountID id = .ok next) :
    ∃ events, next = { db with
      store := { db.store with events }, recoveries := db.cancelledRecoveries accountID } := by
  have ok := of_require ok
  obtain ⟨events, cancelled⟩ := db.cancelWaitingRecovery_eq accountID now
  exact ⟨events, (pure_eq_ok.mp ok).symm.trans cancelled⟩

/-- The recovery keys after the account's one is set. -/
def recoveryKeysWith (db : Database) (accountID : AccountID) (authPublicKey rkID : Bytes) :
    Table RecoveryKey RecoveryKey.accountID :=
  db.accounts.recoveryKeys.upsert ⟨accountID, authPublicKey, rkID⟩
    (fun k => { k with authPublicKey, rkID }) (kept RecoveryKey.accountID)

theorem setRecoveryKey_ok {authPublicKey rkID : Bytes}
    (ok : db.setRecoveryKey now accountID authPublicKey rkID = .ok next) :
    ∃ events, next = { db with
      store := { db.store with events }
      accounts := { db.accounts with recoveryKeys := db.recoveryKeysWith accountID authPublicKey rkID }
      recoveries := db.cancelledRecoveries accountID } := by
  have ok := of_require ok
  have ok := of_require ok
  obtain ⟨events, cancelled⟩ := cancelWaitingRecovery_eq
    { db with accounts := { db.accounts with
        recoveryKeys := db.recoveryKeysWith accountID authPublicKey rkID } } accountID now
  dsimp only [recoveryKeysWith] at cancelled
  dsimp only at ok
  rw [cancelled] at ok
  cases ok
  exact ⟨_, rfl⟩

def withoutAccountLinks (db : Database) (now : Time) (accountID : AccountID) : Database :=
  (db.retireHistoryForLinks (·.accountID = accountID) now).deleteDeviceLinks (·.accountID = accountID)

theorem withoutAccountLinks_retires (db : Database) (now : Time) (accountID : AccountID) :
    Retires db (db.withoutAccountLinks now accountID) :=
  (db.retireHistoryForLinks_retires _ now).trans (deleteDeviceLinks_retires _ _)

/-- The account's name and password are gone, and every device of another account has its keys. -/
structure AccountScrubbed (db : Database) (accountID : AccountID) (accounts : AccountTables) : Prop where
  credentials : (db.accounts.credentials.delete (·.accountID = accountID)).insert?
    ⟨accountID, deletedUsername accountID, none⟩ = some accounts.credentials
  deviceKeys : ∀ k ∈ db.accounts.deviceKeys,
    (∃ d ∈ db.store.devices, d.id = k.deviceID ∧ d.accountID = accountID) ∨ k ∈ accounts.deviceKeys

/-- The key packages of the account's devices. -/
def ownedPackage (db : Database) (accountID : AccountID) (package : KeyPackage) : Prop :=
  ∃ d ∈ db.store.devices, d.id = package.deviceID ∧ d.accountID = accountID
  deriving Decidable

/-- What deleting an account leaves of the tables around the message store. -/
def scrubbed (db : Database) (now : Time) (accountID : AccountID) (accounts : AccountTables) : Database :=
  { db.withoutAccountLinks now accountID with
    store := ((db.withoutAccountLinks now accountID).backupKeys accountID).foldl
      Store.enqueueBlobDeletion (db.withoutAccountLinks now accountID).store
    accounts
    sessions := db.sessions.delete (·.accountID = accountID)
    keyPackages := db.keyPackages.delete ((db.withoutAccountLinks now accountID).ownedPackage accountID)
    recoveries := db.recoveries.delete (·.accountID = accountID)
    blobs := dropBackups (db.withoutAccountLinks now accountID).blobs accountID }

theorem scrubAccount_ok (ok : db.scrubAccount now accountID = .ok next) :
    ∃ accounts, AccountScrubbed db accountID accounts ∧ next = db.scrubbed now accountID accounts := by
  obtain ⟨accounts, scrubbed, ok⟩ := bind_eq_ok.mp ok
  cases ok
  unfold scrubCredentials at scrubbed
  split at scrubbed
  · cases scrubbed
  · next credentials inserted =>
    cases scrubbed
    refine ⟨_, ⟨?_, fun k mem => ?_⟩, rfl⟩
    · exact inserted
    · by_cases owned : ∃ d ∈ db.store.devices, d.id = k.deviceID ∧ d.accountID = accountID
      · exact .inl owned
      · refine .inr ?_
        dsimp only
        refine Table.mem_update.mpr (.inl ⟨mem, ?_⟩)
        rintro ⟨d, known, owner⟩
        exact owned ⟨d, (db.withoutAccountLinks_retires now accountID).devices ▸ known, owner⟩

theorem callStep_ok {call : Call} {reply : Reply} (ok : callStep config db call = .ok (reply, next)) :
    (∃ given, reply = .answer given) ∧
      ∃ answer store, Storage.step config.limits db.store call = .ok (answer, store) ∧
        (db.withStore store).afterCall call = .ok next := by
  obtain ⟨⟨answer, store⟩, called, ok⟩ := bind_eq_ok.mp ok
  obtain ⟨after, followed, ok⟩ := bind_eq_ok.mp ok
  cases ok
  exact ⟨⟨_, rfl⟩, answer, store, called, followed⟩

end Database
end Veritra.Storage
