import Veritra.Soundness.Passwords

/-! # Account recovery over whole runs

A claim of a recovery waits, and completes only if nothing cancelled it meanwhile. At most one request of
an account waits at a time, each completes at most once, and a completion leaves the new device as the
account's only unrevoked one.
-/

namespace Veritra.Storage

open Relational Machine Database

variable {accountID : AccountID} {r : RecoveryRequest} {id : String} {now : Time} {d : Device}
  {later : List Exchange} {config : Config} {history : List Exchange} {db next : Database}
  {request : Request} {reply : Reply}

/-- What a waiting request keeps from its claim to its completion. -/
structure Waiting where
  id : String
  accountID : AccountID
  deviceID : DeviceID
  readyAt : Time
  deriving DecidableEq, Repr

def RecoveryRequest.waiting (r : RecoveryRequest) : Waiting := ⟨r.id, r.accountID, r.deviceID, r.readyAt⟩

def Database.Waits (db : Database) (w : Waiting) : Prop :=
  ∃ r ∈ db.recoveries, r.state = .waiting ∧ r.waiting = w

/-- The account whose waiting request ends with a cancellation, a change of the password or a change of
the recovery key. -/
def Database.endsWaiting (db : Database) : Request → Option AccountID
  | .recovery _ (.cancel accountID _) | .recovery _ (.setKey accountID _ _)
  | .password _ (.change accountID _ _) => some accountID
  | .password _ (.resetOwner username _) =>
    (db.accounts.credentials.findIndex? username).map (·.accountID)
  | _ => none

namespace Exchange

/-- The exchange was a cancellation, a change of the password or a change of the recovery key. -/
def Cancels (exchange : Exchange) (accountID : AccountID) : Prop :=
  exchange.answer.isOk ∧ exchange.before.endsWaiting exchange.call = some accountID

/-- The request that the exchange completed, with a session. -/
def completes (exchange : Exchange) : Option String :=
  match exchange.call, exchange.answer with
  | .recovery _ (.complete _ id _ _), .ok (.recovery (.completed _ _ true _)) => some (trimSpace id)
  | _, _ => none

/-- The exchange stored the claim. It is ready at once, or after the wait if the account had an active
device. -/
def Claims (config : Config) (exchange : Exchange) (w : Waiting) : Prop :=
  ∃ now input r active, exchange.call = .recovery now (.claim w.id input) ∧
    exchange.answer = .ok (.recovery (.claimed r active)) ∧ r.waiting = w ∧ input.accountID = w.accountID ∧
    active = decide (exchange.before.activeDeviceSeen config input.accountID input.activeWindow now) ∧
    w.readyAt = if active then now + input.wait else now

/-- The exchange ended the waiting of the request. -/
def Ends (exchange : Exchange) (w : Waiting) : Prop :=
  exchange.Cancels w.accountID ∨ exchange.completes = some w.id

end Exchange

/-- No two requests of one account wait. -/
def OneWaiting (db : Database) : Prop :=
  ∀ r ∈ db.recoveries, ∀ r' ∈ db.recoveries, r.state = .waiting → r'.state = .waiting →
    r.accountID = r'.accountID → r = r'

/-- A request that is waiting after a cancellation was waiting before, and is one of another account if
only one of an account waits. -/
theorem waiting_of_cancelled (mem : r ∈ db.cancelledRecoveries accountID) (waiting : r.state = .waiting) :
    r ∈ db.recoveries ∧ (OneWaiting db → r.accountID ≠ accountID) := by
  unfold cancelledRecoveries at mem
  split at mem
  · next unfound =>
    refine ⟨mem, fun _ owned => ?_⟩
    have missed := List.find?_eq_none.mp unfound r mem
    simp [owned, waiting] at missed
  · next first found =>
    have selected := List.find?_some found
    rw [decide_eq_true_eq] at selected
    rcases Table.mem_update.mp mem with ⟨kept, spared⟩ | ⟨old, -, -, rfl⟩
    · refine ⟨kept, fun one owned => spared ?_⟩
      rw [one r kept first (List.mem_of_find?_eq_some found) waiting selected.2 (owned.trans selected.1.symm)]
      exact ⟨rfl, selected.2⟩
    · cases waiting

theorem mem_closedRecoveries {recoveries : Table RecoveryRequest RecoveryRequest.id}
    {state : RecoveryState} {completedAt : Option Time}
    (mem : r ∈ closedRecoveries recoveries id state completedAt) :
    r ∈ recoveries ∧ ¬ (r.id = id ∧ r.state = .waiting) ∨
      ∃ old ∈ recoveries, (old.id = id ∧ old.state = .waiting) ∧ { old with state, completedAt } = r := by
  unfold closedRecoveries at mem
  exact Table.mem_update.mp mem

/-- What is waiting after a committed request was waiting before it and was not ended, or was claimed by
it. -/
theorem waiting_of_step (ok : Database.step config db request = .ok (reply, next))
    (mem : r ∈ next.recoveries) (waiting : r.state = .waiting) :
    (∃ old ∈ db.recoveries, old.state = .waiting ∧ old.waiting = r.waiting ∧
      (OneWaiting db → ¬ Exchange.Ends ⟨db, request, .ok reply, next⟩ r.waiting)) ∨
    Exchange.Claims config ⟨db, request, .ok reply, next⟩ r.waiting ∧
      ∀ other ∈ next.recoveries, other.state = .waiting → other.accountID = r.accountID → other = r := by
  have kept (known : r ∈ db.recoveries) (spared : OneWaiting db → db.endsWaiting request ≠ some r.accountID)
      (incomplete : Exchange.completes ⟨db, request, .ok reply, next⟩ = none) :
      ∃ old ∈ db.recoveries, old.state = .waiting ∧ old.waiting = r.waiting ∧
        (OneWaiting db → ¬ Exchange.Ends ⟨db, request, .ok reply, next⟩ r.waiting) := by
    refine ⟨r, known, waiting, rfl, ?_⟩
    rintro one (⟨-, cancels⟩ | completes)
    · exact spared one cancels
    · cases incomplete.symm.trans completes
  -- a request that ends no account's waiting keeps what was waiting before it
  have quiet (known : r ∈ db.recoveries) (silent : db.endsWaiting request = none) :=
    kept known fun _ ends => nomatch silent.symm.trans ends
  -- one that ends an account's waiting keeps what was waiting for other accounts
  have cancelled {accountID : AccountID} (mem : r ∈ db.cancelledRecoveries accountID)
      (ends : db.endsWaiting request = some accountID) :=
    have ⟨known, other⟩ := waiting_of_cancelled mem waiting
    kept known fun one ends' => other one (Option.some.inj (ends'.symm.trans ends))
  cases outcome_of_step ok with
  | revoked =>
    exact .inl (quiet mem rfl rfl)
  | deleted => exact .inl (quiet (Table.mem_delete.mp mem).1 rfl rfl)
  | approved _ _ _ outcome | completed _ _ _ _ outcome => cases outcome <;> exact .inl (quiet mem rfl rfl)
  | history served => exact .inl (quiet ((historyStep_retires served).recoveries ▸ mem) rfl rfl)
  | blob served => exact .inl (quiet ((blobStep_frame served).recoveries ▸ mem) rfl rfl)
  | passwordChanged | recoveryCancelled | recoveryKeySet => exact .inl (cancelled mem rfl rfl)
  | passwordReset named =>
    refine .inl (cancelled mem ?_ rfl)
    simp only [endsWaiting, IndexedTable.findIndex?_eq_some.mpr named, Option.map_some]
  | hashUpgraded =>
    change r ∈ db.upgradedRecoveries _ _ _ at mem
    rcases Table.mem_update.mp mem with ⟨known, -⟩ | ⟨old, known, selected, rfl⟩
    · exact .inl (quiet known rfl rfl)
    · refine .inl ⟨old, known, selected.2.1, rfl, ?_⟩
      rintro - (⟨-, cancels⟩ | completes)
      · cases cancels
      · cases completes
  | recoveryClaimed claimed named inserted =>
    rcases (Table.mem_of_insert? inserted r).mp mem with kept | rfl
    · exact .inl (quiet (waiting_of_cancelled kept waiting).1 rfl rfl)
    · obtain ⟨id, rfl⟩ := claimed.stored
      cases named
      refine .inr ⟨⟨_, _, _, _, rfl, rfl, rfl, rfl, claimed.seen, rfl⟩, fun other known waits account => ?_⟩
      rcases (Table.mem_of_insert? inserted other).mp known with kept | rfl
      · exact absurd ⟨account, waits⟩ (claimed.free other kept).2.2
      · rfl
  | recoveryAnswered stored named _ outcome =>
    cases outcome with
    | repeated | waiting => exact .inl (quiet mem rfl rfl)
    | closed _ refused =>
      rcases mem_closedRecoveries mem with ⟨known, -⟩ | ⟨old, -, -, rfl⟩
      · exact .inl (quiet known rfl rfl)
      · rcases refused with rfl | rfl <;> cases waiting
    | completed =>
      rcases mem_closedRecoveries mem with ⟨known, spared⟩ | ⟨old, -, -, rfl⟩
      · refine .inl ⟨r, known, waiting, rfl, ?_⟩
        rintro - (⟨-, cancels⟩ | completes)
        · cases cancels
        · exact spared ⟨(Option.some.inj completes).symm.trans named.symm, waiting⟩
      · cases waiting
  | pruned =>
    have kept := (Table.mem_delete.mp mem).1
    exact .inl (quiet kept rfl rfl)
  | _ => exact .inl (quiet mem rfl rfl)

theorem oneWaiting_of_run (run : DatabaseRun config history db) : OneWaiting db := by
  refine run.preserves OneWaiting nofun fun db request reply next _ one ok => ?_
  intro r mem r' member' waiting waiting' account
  rcases waiting_of_step ok mem waiting with ⟨old, known, waits, same, -⟩ | ⟨-, only⟩
  · rcases waiting_of_step ok member' waiting' with ⟨old', known', waits', same', -⟩ | ⟨-, only⟩
    · have accounts := congrArg Waiting.accountID same
      have accounts' := congrArg Waiting.accountID same'
      have equal := one old known old' known' waits waits' (accounts.trans (account.trans accounts'.symm))
      rw [equal, same'] at same
      exact (Table.eq_of_key member' mem (congrArg Waiting.id same)).symm
    · exact only r mem waiting account
  · exact (only r' member' waiting' account.symm).symm

/-- No request under the id can complete. -/
def Finished (id : String) (db : Database) : Prop := ∀ r ∈ db.recoveries, r.id = id → r.state ≠ .waiting

def Exchange.ClaimsAs (config : Config) (exchange : Exchange) (id : String) : Prop :=
  ∃ w, w.id = id ∧ exchange.Claims config w

/-- What a completion found and left. -/
structure RecoveryCompleted (db : Database) (now : Time) (r : RecoveryRequest) (next : Database) : Prop where
  stored : r ∈ db.recoveries
  waiting : r.state = .waiting
  ready : r.readyAt ≤ now
  closed : next.recoveries = closedRecoveries db.recoveries r.id .completed (some now)
  device : ∃ d ∈ next.store.devices, d.id = r.deviceID ∧ d.accountID = r.accountID ∧ d.revokedAt = none
  only : ∀ d ∈ next.store.devices, d.accountID = r.accountID → d.revokedAt = none → d.id = r.deviceID
  new : ∀ d ∈ db.store.devices, d.id ≠ r.deviceID
  /-- One session is added, on the new device. -/
  session : ∃ s ∈ next.sessions, s ∉ db.sessions ∧ s.accountID = r.accountID ∧ s.deviceID = some r.deviceID ∧
    ∀ other ∈ next.sessions, other ∉ db.sessions → other = s

/-- A session on a new device was in no table before. -/
theorem session_of_recovered {sessions : Sessions} {tokenHash : TokenHash}
    (new : ∀ d ∈ db.store.devices, d.id ≠ r.deviceID)
    (inserted : (db.remainingSessions r.accountID).insert?
      (config.newSession now tokenHash r.accountID r.deviceID none none) = some sessions) :
    ∃ s ∈ sessions, s ∉ db.sessions ∧ s.accountID = r.accountID ∧ s.deviceID = some r.deviceID ∧
      ∀ other ∈ sessions, other ∉ db.sessions → other = s := by
  have members := Table.mem_of_insert? inserted
  refine ⟨_, (members _).mpr (.inr rfl), fun known => ?_, rfl, rfl, fun other mem unknown => ?_⟩
  · refine Table.free_of_insert? inserted _ (Table.mem_delete.mpr ⟨known, ?_⟩) rfl
    rintro (⟨deviceID, old, same⟩ | ⟨-, deviceless⟩)
    · obtain ⟨d, mem, -, -, rfl⟩ := Store.mem_accountDeviceIDs.mp old
      exact new d mem (Option.some.inj same).symm
    · cases deviceless
  · rcases (members other).mp mem with kept | same
    · exact absurd (Table.mem_delete.mp kept).1 unknown
    · exact same

theorem completed_of_step (ok : Database.step config db request = .ok (reply, next))
    (completes : Exchange.completes ⟨db, request, .ok reply, next⟩ = some id) :
    ∃ now r, request.now = some now ∧ r.id = id ∧ RecoveryCompleted db now r next := by
  unfold Exchange.completes at completes
  split at completes
  · next now keyPackageID rawID claimTokenHash sessionTokenHash accountID deviceID revoked call answer =>
    cases completes
    cases call
    cases answer
    cases outcome_of_step ok with
    | recoveryAnswered stored named token outcome =>
      cases outcome with
      | completed waiting ready _ _ _ _ recovered =>
        obtain ⟨_, revoking⟩ := recovered.revoked
        have devices := Store.completeRecovery_devices revoking
        rw [(db.withoutLinks_retires _ _).devices] at devices
        obtain ⟨device, only, new⟩ := devices
        exact ⟨_, _, rfl, named, stored, waiting, ready, rfl, device, only, new,
          session_of_recovered new recovered.session⟩
  · cases completes

/-- A request about recovery that completes none leaves the sessions as they are. -/
theorem sessions_of_step {call : RecoveryCall}
    (ok : Database.step config db (.recovery now call) = .ok (reply, next))
    (incomplete : Exchange.completes ⟨db, .recovery now call, .ok reply, next⟩ = none) :
    next.sessions = db.sessions := by
  cases outcome_of_step ok with
  | recoveryClaimed | recoveryCancelled | recoveryKeySet => rfl
  | recoveryAnswered _ _ _ outcome =>
    cases outcome with
    | repeated | waiting | closed => rfl
    | completed => cases incomplete

theorem recoveries_spending :
    Spending (Database.step config) (fun exchange id => Exchange.completes exchange = some id)
      (Exchange.ClaimsAs config) Finished where
  use := by
    intro db request reply next id ok completes
    obtain ⟨now, r, -, rfl, completed⟩ := completed_of_step ok completes
    refine ⟨fun done => done r completed.stored rfl completed.waiting, fun r' mem named waiting => ?_⟩
    rw [completed.closed] at mem
    rcases mem_closedRecoveries mem with ⟨-, spared⟩ | ⟨old, -, -, rfl⟩
    · exact spared ⟨named, waiting⟩
    · cases waiting
  keep := by
    intro db request reply next id ok finished
    by_cases done : Finished id next
    · exact .inr done
    · simp only [Finished, not_forall, not_not] at done
      obtain ⟨r, mem, named, waiting⟩ := done
      rcases waiting_of_step ok mem waiting with ⟨old, known, waits, same, -⟩ | ⟨claims, -⟩
      · exact absurd waits (finished old known ((congrArg Waiting.id same).trans named))
      · exact .inl ⟨r.waiting, named, claims⟩
  refused := by
    intro db request refusal id completes
    simp [Exchange.completes] at completes

/-- No token of a session on a revoked device resolves. -/
theorem principal_of_revoked {tokenHash : TokenHash} {principal : Principal}
    (resolved : sessionPrincipal config db tokenHash now = .ok principal)
    (mem : d ∈ db.store.devices) (revoked : d.revokedAt ≠ none) :
    principal.deviceID ≠ some d.id := by
  intro same
  obtain ⟨s, -, valid, origin⟩ := sessionPrincipal_ok resolved
  have device : principal.deviceID = s.deviceID := by
    rcases origin with ⟨-, rfl⟩ | ⟨-, -, rfl⟩ <;> rfl
  obtain ⟨d', known, sameID, active⟩ := valid.2.2 d.id (device ▸ same)
  rw [Table.eq_of_key known mem sameID] at active
  exact revoked active

/-- A device that the account had when its recovery completed is revoked ever after. -/
theorem revoked_of_completed {start : Database} (completed : RecoveryCompleted db now r start)
    (kept : db.store.DevicesKept start.store) {final : Database}
    (rest : Run (Database.step config) unguarded start later final) (mem : d ∈ db.store.devices)
    (owned : d.accountID = r.accountID) :
    ∃ d' ∈ final.store.devices, d'.id = d.id ∧ d'.revokedAt ≠ none := by
  obtain ⟨d', stays, sameID, sameAccount, -⟩ := kept d mem
  obtain ⟨d'', remains, sameID', -, revoked⟩ := devicesKept_of_rest rest d' stays
  refine ⟨d'', remains, sameID'.trans sameID, fun unrevoked => ?_⟩
  have isNew := completed.only d' stays (sameAccount.trans owned) (revoked unrevoked)
  exact completed.new d mem (sameID.symm.trans isNew)

/-- What recovery guarantees over a run. -/
structure RecoverySound (config : Config) (history : List Exchange) (db : Database) : Prop where
  /-- At most one request of an account waits. -/
  one : ∀ r ∈ db.recoveries, ∀ r' ∈ db.recoveries, r.state = .waiting → r'.state = .waiting →
    r.accountID = r'.accountID → r = r'
  /-- A request completes once: a second completion under its id has its own claim. -/
  once : ∀ first between second id, first :: between ++ [second] <:+: history →
    first.completes = some id → second.completes = some id → ∃ exchange ∈ between, exchange.ClaimsAs config id
  /-- No other request about recovery adds a session. -/
  issued : ∀ exchange ∈ history, ∀ now call, exchange.call = .recovery now call → exchange.completes = none →
    exchange.after.sessions = exchange.before.sessions
  /-- The answer to a repeated completion issues no session and changes nothing. -/
  repeated : ∀ exchange ∈ history, ∀ accountID deviceID revoked,
    exchange.answer = .ok (.recovery (.completed accountID deviceID false revoked)) → exchange.after = exchange.before
  /-- A completion has a claim with no cancellation, change of the password or change of the recovery key
  since, and waited if the account had an active device. It leaves the new device as the only unrevoked
  one and adds one session, on that device. -/
  completed : ∀ earlier done later id, history = earlier ++ done :: later → done.completes = some id →
    ∃ now r, done.call.now = some now ∧ r.id = id ∧ RecoveryCompleted done.before now r done.after ∧
      ∃ before claim between claimed input, earlier = before ++ claim :: between ∧
        claim.call = .recovery claimed (.claim id input) ∧ claim.answer.isOk ∧
        input.accountID = r.accountID ∧ (∀ exchange ∈ between, ¬ exchange.Cancels r.accountID) ∧
        (claim.before.activeDeviceSeen config r.accountID input.activeWindow claimed → claimed + input.wait ≤ now)
  /-- From then on no token of a session on an older device resolves. -/
  older : ∀ done ∈ history, ∀ id, done.completes = some id →
    ∃ r ∈ done.before.recoveries, r.id = id ∧
      ∀ d ∈ done.before.store.devices, d.accountID = r.accountID →
      ∀ tokenHash now principal, sessionPrincipal config db tokenHash now = .ok principal →
        principal.deviceID ≠ some d.id

theorem completed_of_entry {earlier : List Exchange} {done : Exchange}
    (run : DatabaseRun config (earlier ++ done :: later) db) (completes : done.completes = some id) :
    ∃ now r, done.call.now = some now ∧ r.id = id ∧ RecoveryCompleted done.before now r done.after := by
  rcases run.committed_or_refused (show done ∈ _ by simp) with ⟨reply, answered, ok⟩ | ⟨_, answered, -⟩
  · refine completed_of_step ok ?_
    rw [← answered]
    exact completes
  · simp [Exchange.completes, answered] at completes

theorem claimed_of_run (run : DatabaseRun config history db) (mem : r ∈ db.recoveries)
    (waiting : r.state = .waiting) :
    ∃ before claim between, history = before ++ claim :: between ∧ claim.Claims config r.waiting ∧
      ∀ exchange ∈ between, ¬ Exchange.Ends exchange r.waiting := by
  have waits : db.Waits r.waiting := ⟨r, mem, waiting, rfl⟩
  refine run.since ?_ ?_ ?_ waits
  · rintro w ⟨_, none, -⟩
    cases none
  · rintro history db request reply next w before ok ⟨r, mem, waiting, rfl⟩
    rcases waiting_of_step ok mem waiting with ⟨old, known, waits, same, unended⟩ | ⟨claims, -⟩
    · exact .inl ⟨⟨old, known, waits, same⟩, unended (oneWaiting_of_run before)⟩
    · exact .inr claims
  · rintro db request refusal w (⟨accepted, -⟩ | completes)
    · cases accepted
    · simp [Exchange.completes] at completes

/-- In every run of requests, recovery is sound. -/
theorem recovery_sound (run : DatabaseRun config history db) : RecoverySound config history db where
  one := oneWaiting_of_run run
  once := fun _ _ _ _ part first second => recoveries_spending.restored_between run part first second
  issued := by
    rintro ⟨before, _, answer, after⟩ member now call rfl incomplete
    rcases run.committed_or_refused member with ⟨reply, answered, committed⟩ | ⟨_, -, kept⟩
    · cases answered
      exact sessions_of_step committed incomplete
    · exact congrArg Database.sessions kept
  repeated := by
    rintro ⟨before, call, answer, after⟩ member accountID deviceID revoked answered
    rcases run.committed_or_refused member with ⟨reply, same, committed⟩ | ⟨_, -, kept⟩
    · cases same.symm.trans answered
      cases outcome_of_step committed with
      | recoveryAnswered _ _ _ outcome =>
        cases outcome
        rfl
    · exact kept
  completed := by
    rintro earlier done later id rfl completes
    obtain ⟨now, r, reading, rfl, completed⟩ := completed_of_entry run completes
    refine ⟨now, r, reading, rfl, completed, ?_⟩
    obtain ⟨before, claim, between, split, claims, unended⟩ :=
      claimed_of_run run.at_entry.1 completed.stored completed.waiting
    obtain ⟨claimed, input, _, active, call, answered, -, account, seen, ready⟩ := claims
    refine ⟨before, claim, between, claimed, input, split, call, by rw [answered]; rfl, account, ?_, ?_⟩
    · exact fun exchange member cancels => unended exchange member (.inl cancels)
    · intro device
      have delayed : r.readyAt = claimed + input.wait := by
        rw [← show input.accountID = r.accountID from account] at device
        exact ready.trans (if_pos (seen.trans (decide_eq_true device)))
      exact delayed ▸ completed.ready
  older := by
    intro done member id completes
    obtain ⟨earlier, later, rfl⟩ := List.append_of_mem member
    obtain ⟨now, r, -, rfl, completed⟩ := completed_of_entry run completes
    refine ⟨r, completed.stored, rfl, fun d known owned tokenHash now principal resolved => ?_⟩
    have kept : done.before.store.DevicesKept done.after.store := by
      rcases run.committed_or_refused member with ⟨_, -, committed⟩ | ⟨_, -, same⟩
      · exact devicesKept_of_step committed
      · exact same ▸ .refl _
    obtain ⟨d', remains, sameID, revoked⟩ := revoked_of_completed completed kept run.after_entry known owned
    exact sameID ▸ principal_of_revoked resolved remains revoked

namespace Example

def recoveryKey : Bytes := List.replicate 32 7

/-- Alice's claim from a new phone, with a wait of a week. -/
def recoveryClaim : RecoveryClaimInput :=
  ⟨"third", alice, "new phone", [4], [5], "new-secret", "claim token", firstHash, recoveryKey, 30 * day, 7 * day⟩

def completesRecovery (now : Time) (sessionTokenHash : TokenHash) : Request :=
  .recovery now (.complete "new-package" "claim" "claim token" sessionTokenHash)

/-- Alice sets a recovery key, claims a recovery while her phone is active, and asks for it too early, in
time and once more. -/
def recovers : List Request :=
  friends ++ [.recovery 1 (.setKey alice recoveryKey (List.replicate 16 8)),
    .reserve 2 (.recovery "third" "alice" "decoy" "new-phone"),
    .recovery 3 (.claim "claim" recoveryClaim), completesRecovery 4 "too early",
    completesRecovery (7 * day + 3) "new token", completesRecovery (7 * day + 4) "repeated"]

end Example

open Example in
/-- Alice gets one session, after a week, and her old phone none. -/
theorem recovery_sound_alice :
    (served recovers).filterMap Exchange.completes = ["claim"] ∧
      RecoverySound smallConfig (served recovers) (reached recovers) ∧
      ((reached recovers).sessions.rows.filter (·.accountID = alice)).map (·.tokenHash) = ["new token"] :=
  ⟨by decide +kernel, recovery_sound (served_run recovers), by decide +kernel⟩

end Veritra.Storage
