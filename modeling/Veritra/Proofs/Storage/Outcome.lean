import Veritra.Proofs.Storage.Devices
import Veritra.Proofs.Storage.BlobRequests

/-! # What one committed request can do

Every committed request of the database has one of the outcomes below. Requests that write one table
are one case each, with the function that serves them; the others are described by the database they
leave. The proofs about single tables and about whole runs go through this classification.
-/

namespace Veritra.Storage

open Relational Machine

/-- The calls of the message store that write other tables too. -/
def Call.spreads : Call → Bool
  | revokeDevice .. | revokeDeviceWithSyncEvent .. | setAccountStatus .. | deleteAccountData .. => true
  | _ => false

namespace Database

theorem scrubbed_devices (db : Database) (now : Time) (accountID : AccountID) (accounts : AccountTables) :
    (db.scrubbed now accountID accounts).store.devices = db.store.devices :=
  (enqueueEach_devices _ _).trans (withoutAccountLinks_retires _ _ _).devices

/-- What a committed request did. -/
inductive Outcome (config : Config) (db : Database) : Request → Reply → Database → Prop
  | called {request : PublicCall} {reply answer : Answer} {store : Store}
      (called : Storage.step config.limits db.store request.1 = .ok (answer, store))
      (contained : request.1.spreads = false) :
      Outcome config db (.call request) (.answer reply) (db.withStore store)
  | revoked {request : PublicCall} {reply answer : Answer} {store : Store} {now : Time}
      {accountID : AccountID} {deviceID : DeviceID}
      (called : Storage.step config.limits db.store request.1 = .ok (answer, store))
      (revokes : request.1 = .revokeDevice now accountID deviceID ∨
        request.1 = .revokeDeviceWithSyncEvent now accountID deviceID) :
      Outcome config db (.call request) (.answer reply) ((db.withStore store).dropDevice accountID deviceID now)
  | statusSet {request : PublicCall} {reply answer : Answer} {store : Store}
      {actor target : AccountID} {status : AccountStatus} {sessions : Sessions}
      (called : Storage.step config.limits db.store request.1 = .ok (answer, store))
      (sets : request.1 = .setAccountStatus actor target status)
      (left : sessions = if status = .suspended then db.sessions.delete (·.accountID = target) else db.sessions) :
      Outcome config db (.call request) (.answer reply) { db.withStore store with sessions }
  | deleted {request : PublicCall} {reply answer : Answer} {store : Store} {now : Time}
      {accountID : AccountID} {accounts : AccountTables}
      (called : Storage.step config.limits db.store request.1 = .ok (answer, store))
      (deletes : request.1 = .deleteAccountData now accountID)
      (scrubbed : AccountScrubbed (db.withStore store) accountID accounts) :
      Outcome config db (.call request) (.answer reply) ((db.withStore store).scrubbed now accountID accounts)
  | session {sessions : Sessions} (served : sessionStep config db now request = .ok sessions) :
      Outcome config db (.session now request) .done { db with sessions }
  | keyPackage {keyPackages : KeyPackages} (served : keyPackageStep config db now request = .ok (items, keyPackages)) :
      Outcome config db (.keyPackage now request) (.keyPackages items) { db with keyPackages }
  | reserved {accounts : AccountTables} (served : db.reserveStep now request = .ok accounts) :
      Outcome config db (.reserve now request) .done { db with accounts }
  | registered {store : Store} {keyPackages : KeyPackages} {sessions : Sessions}
      (registers : request = .createOwner input ∨ request = .registerWithInvite input)
      (registered : Registered config db now role input reservation store credentials deviceKeys keyPackages
        sessions) :
      Outcome config db (.enroll now request) .done
        { db with
          store, keyPackages, sessions
          accounts := { db.accounts with
            credentials, deviceKeys, reservations := db.consumed now reservation.id } }
  | legacyApproved {now : Time} {accountID : AccountID} {device : NewDevice} {withSyncEvent : Bool}
      {store : Store} {deviceKeys : Table DeviceKeys DeviceKeys.deviceID} {keyPackages : KeyPackages}
      (enrolled : db.store.enrollDevice now accountID device.id = .ok ((), store))
      (inserted : DeviceKeysInserted db now device deviceKeys keyPackages) :
      Outcome config db (.enroll now (.approveLegacyLink accountID device withSyncEvent)) .done
        { db with
          store := if withSyncEvent then
            (store.insertSyncEvent .deviceUpdated (some accountID) none (.device device.id) now).2 else store
          keyPackages
          accounts := { db.accounts with deviceKeys } }
  | legacyConsumed {sessions : Sessions}
      (started : db.sessions.insert? (config.newSession now sessionTokenHash accountID deviceID (some now)
        sessionExpiresAt) = some sessions) :
      Outcome config db (.consumeLegacyLink now accountID deviceID sessionTokenHash sessionExpiresAt) .done
        { db with sessions }
  | link {links : DeviceLinks} (served : linkStep config db now request = .ok (reply, links)) :
      Outcome config db (.link now request) (.link reply) { db with links }
  | approved {id : LinkID} (checked : ClaimChecked db now id requestHash transcriptHash link reservation claim)
      (account : link.accountID = accountID) (source : link.sourceDeviceID = sourceDeviceID)
      (outcome : ApproveOutcome db now keyPackageID id accountID approvalTag link reservation claim
        (view, device, eventID) next) :
      Outcome config db (.approveLink now keyPackageID id accountID sourceDeviceID requestHash
        transcriptHash approvalTag) (.approved view device eventID) next
  | completed {id : LinkID} (checked : ClaimChecked db now id requestHash transcriptHash link reservation claim)
      (token : claim.claimTokenHash = claimTokenHash)
      (session : claim.initialSessionTokenHash = initialSessionHash)
      (approved : link.approval = some approval)
      (outcome : CompleteOutcome config db now link reservation claim approval (receipt, approvalTag) next) :
      Outcome config db (.completeLink now id claimTokenHash requestHash initialSessionHash transcriptHash)
        (.completed receipt approvalTag) next
  | history (served : historyStep config db now request = .ok (reply, next)) :
      Outcome config db (.history now request) (.history reply) next
  | blob (served : blobStep config db now request = .ok next) :
      Outcome config db (.blob now request) .done next
  | passwordChanged {hash : PasswordHash} (undeleted : db.undeleted accountID) :
      Outcome config db (.password now (.change accountID keepTokenHash hash)) .done
        { db with
          store := { db.store with events }
          accounts := db.passwordAccounts accountID hash
          sessions := db.keptSessions now accountID keepTokenHash
          recoveries := db.cancelledRecoveries accountID }
  | passwordReset {hash : PasswordHash} (named : c ∈ db.accounts.credentials ∧ c.username = username) :
      Outcome config db (.password now (.resetOwner username hash)) .done
        { db with
          store := { db.store with events }
          accounts := db.passwordAccounts c.accountID hash
          sessions := db.sessions.delete (·.accountID = c.accountID)
          recoveries := db.cancelledRecoveries c.accountID }
  | hashKept :
      Outcome config db (.password now (.upgradeHash accountID currentHash salt)) .done db
  | hashUpgraded (current : db.hasPasswordHash accountID currentHash) :
      Outcome config db (.password now (.upgradeHash accountID currentHash salt)) .done
        { db with
          accounts := db.passwordAccounts accountID { currentHash with salt }
          recoveries := db.upgradedRecoveries accountID currentHash { currentHash with salt } }
  | recoveryClaimed {id : String} {recoveries : Table RecoveryRequest RecoveryRequest.id}
      (claimed : RecoveryClaimed config db now input reservation request active) (named : request.id = id)
      (inserted : (db.cancelledRecoveries input.accountID).insert? request = some recoveries) :
      Outcome config db (.recovery now (.claim id input)) (.recovery (.claimed request active))
        { db with
          store := { db.store with events }
          accounts := { db.accounts with reservations := db.consumed now reservation.id }
          recoveries }
  | recoveryAnswered {id : String} (stored : request ∈ db.recoveries) (named : request.id = trimSpace id)
      (token : request.claimTokenHash = claimTokenHash)
      (outcome : CompleteRecoveryOutcome config db now keyPackageID sessionTokenHash request reply next) :
      Outcome config db (.recovery now (.complete keyPackageID id claimTokenHash sessionTokenHash))
        (.recovery reply) next
  | recoveryCancelled {id : String} :
      Outcome config db (.recovery now (.cancel accountID id)) (.recovery .done)
        { db with store := { db.store with events }, recoveries := db.cancelledRecoveries accountID }
  | recoveryKeySet :
      Outcome config db (.recovery now (.setKey accountID authPublicKey rkID)) (.recovery .done)
        { db with
          store := { db.store with events }
          accounts := { db.accounts with recoveryKeys := db.recoveryKeysWith accountID authPublicKey rkID }
          recoveries := db.cancelledRecoveries accountID }
  | seen {now : Time} {deviceID : DeviceID} :
      Outcome config db (.markDeviceSeen now deviceID) .done { db with accounts := db.markDeviceSeen now deviceID }
  | pruned {now : Time} :
      Outcome config db (.pruneOperationalRows now) .done (db.pruneOperationalRows now)

variable {config : Config} {db next : Database} {request : Request} {reply : Reply}

/-- What a call of the message store did, here and around it. -/
theorem outcome_of_call {request : PublicCall} (ok : callStep config db request.1 = .ok (reply, next)) :
    Outcome config db (.call request) reply next := by
  obtain ⟨⟨given, rfl⟩, answer, store, called, followed⟩ := callStep_ok ok
  by_cases contained : request.1.spreads = false
  · have plain : next = db.withStore store := by
      obtain ⟨call, isPublic⟩ := request
      cases call <;> first | exact (Except.ok.inj followed).symm | cases contained
    rw [plain]
    exact .called called contained
  · obtain ⟨call, isPublic⟩ := request
    cases call <;> try exact absurd rfl contained
    case revokeDevice now accountID deviceID =>
      cases followed
      exact .revoked called (.inl rfl)
    case revokeDeviceWithSyncEvent now accountID deviceID =>
      cases followed
      exact .revoked called (.inr rfl)
    case setAccountStatus actor target status =>
      simp only [afterCall] at followed
      split at followed
      · next suspended =>
        cases followed
        exact .statusSet called rfl (if_pos suspended).symm
      · next other =>
        cases followed
        exact .statusSet called rfl (if_neg other).symm
    case deleteAccountData now accountID =>
      obtain ⟨accounts, scrubbed, rfl⟩ := scrubAccount_ok followed
      exact .deleted called rfl scrubbed

/-- Every committed request has one of the outcomes. -/
theorem outcome_of_step (ok : step config db request = .ok (reply, next)) :
    Outcome config db request reply next := by
  cases request <;> simp only [step] at ok
  case call request => exact outcome_of_call ok
  case markDeviceSeen now deviceID =>
    cases ok
    exact .seen
  case pruneOperationalRows now =>
    cases ok
    exact .pruned
  all_goals
    obtain ⟨inner, ran, same⟩ := map_eq_ok.mp ok
    cases same
  case session now request => exact .session ran
  case keyPackage now request => exact .keyPackage ran
  case reserve now request => exact .reserved ran
  case enroll now request =>
    cases request with
    | createOwner input =>
      have ran := of_require ran
      obtain ⟨_, _, _, _, _, _, registered, rfl⟩ := registerReserved_ok ran
      exact .registered (.inl rfl) registered
    | registerWithInvite input =>
      obtain ⟨_, _, _, _, _, _, registered, rfl⟩ := registerReserved_ok ran
      exact .registered (.inr rfl) registered
    | approveLegacyLink accountID device withSyncEvent =>
      obtain ⟨_, _, _, enrolled, inserted, rfl⟩ := approveLegacyDeviceLink_ok ran
      exact .legacyApproved enrolled inserted
  case consumeLegacyLink now accountID deviceID sessionTokenHash sessionExpiresAt =>
    have ran := of_require ran
    exact .legacyConsumed (insertSession_ok ran)
  case link now request => exact .link ran
  case approveLink =>
    obtain ⟨_, _, _, checked, account, source, outcome⟩ := approveDeviceLink_ok ran
    exact .approved checked account source outcome
  case completeLink =>
    obtain ⟨_, _, _, _, checked, token, session, approved, outcome⟩ := completeDeviceLink_ok ran
    exact .completed checked token session approved outcome
  case history now request => exact .history ran
  case blob now request => exact .blob ran
  case password now request =>
    cases request with
    | change accountID keepTokenHash hash =>
      obtain ⟨undeleted, _, rfl⟩ := changePassword_ok ran
      exact .passwordChanged undeleted
    | resetOwner username hash =>
      obtain ⟨c, mem, named, _, rfl⟩ := resetOwnerPassword_ok ran
      exact .passwordReset ⟨mem, named⟩
    | upgradeHash accountID currentHash salt =>
      cases ran
      rcases db.upgradePasswordHash_cases accountID currentHash salt with same | ⟨current, same⟩
      · rw [same]
        exact .hashKept
      · rw [same]
        exact .hashUpgraded current
  case recovery now request =>
    cases request with
    | claim id input =>
      obtain ⟨⟨⟨request, active⟩, after⟩, claiming, same⟩ := map_eq_ok.mp ran
      cases same
      obtain ⟨reservation, claimed, named, _, _, inserted, rfl⟩ := claimRecovery_ok claiming
      exact .recoveryClaimed claimed named inserted
    | complete keyPackageID id claimTokenHash sessionTokenHash =>
      obtain ⟨request, stored, named, token, outcome⟩ := completeRecovery_ok ran
      exact .recoveryAnswered stored named token outcome
    | cancel accountID id =>
      obtain ⟨after, cancelling, same⟩ := map_eq_ok.mp ran
      cases same
      obtain ⟨_, rfl⟩ := cancelRecoveryRequest_ok cancelling
      exact .recoveryCancelled
    | setKey accountID authPublicKey rkID =>
      obtain ⟨after, setting, same⟩ := map_eq_ok.mp ran
      cases same
      obtain ⟨_, rfl⟩ := setRecoveryKey_ok setting
      exact .recoveryKeySet

theorem devicesKept_of_outcome (outcome : Outcome config db request reply next) :
    db.store.DevicesKept next.store := by
  cases outcome with
  | called called | statusSet called => exact devicesKept_of_call called
  | revoked called =>
    exact (devicesKept_of_call called).trans (.of_eq (dropDevice_retires _ _ _ _).devices)
  | deleted called =>
    exact (devicesKept_of_call called).trans (.of_eq (scrubbed_devices _ _ _ _))
  | registered _ registered =>
    exact .of_keeps (Store.registerAccount_calm registered.registered).devices
  | legacyApproved enrolled =>
    refine (Store.DevicesKept.of_keeps (Store.enrollDevice_calm enrolled).devices).trans (.of_eq ?_)
    split <;> rfl
  | approved _ _ _ outcome =>
    cases outcome with
    | repeated => exact .refl _
    | approved _ _ enrolled => exact .of_keeps (Store.enrollDevice_calm enrolled).devices
  | completed _ _ _ _ outcome => cases outcome <;> exact .refl _
  | history served => exact .of_eq (historyStep_retires served).devices
  | blob served => exact .of_eq (blobStep_frame served).devices
  | recoveryAnswered _ _ _ outcome =>
    cases outcome with
    | repeated => exact .refl _
    | waiting => exact .refl _
    | closed => exact .refl _
    | completed _ _ _ _ _ _ recovered =>
      obtain ⟨_, revoked⟩ := recovered.revoked
      obtain ⟨_, recovered⟩ := Store.completeRecovery_ok revoked
      exact Store.DevicesKept.trans (.of_eq (withoutLinks_retires _ _ _).devices) (.recovered recovered)
  | pruned => exact .of_eq (retireStaleHistory_retires _ _).devices
  | _ => exact .refl _

theorem devicesKept_of_step (ok : step config db request = .ok (reply, next)) :
    db.store.DevicesKept next.store :=
  devicesKept_of_outcome (outcome_of_step ok)

theorem devicesKept_of_rest {start : Database} {later : List Exchange}
    (rest : Run (step config) unguarded start later db) : start.store.DevicesKept db.store :=
  rest.preserves (fun db => start.store.DevicesKept db.store) (.refl _)
    fun _ _ _ _ _ kept ok => kept.trans (devicesKept_of_step ok)

end Database
end Veritra.Storage
