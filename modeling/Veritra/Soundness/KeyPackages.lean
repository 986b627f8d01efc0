import Veritra.Machine.History
import Veritra.Proofs.Storage.PackageMoves
import Veritra.Soundness.CommitOrder

/-! # Key packages over whole runs

A key package is handed out at most once, and an account gets at most a configured number of packages
of another account's device in a day. The count of a claim reads the claimed rows, so what a sweep may
delete matters.
-/

namespace Veritra.Storage

open Relational Machine Database

namespace Exchange

/-- The packages that the request handed out. -/
def handedOut (exchange : Exchange) : List DeviceKeyPackage :=
  match exchange.answer with
  | .ok reply => reply.packages
  | .error _ => []

/-- The request stored a package under an id that was not taken. -/
def Stores (exchange : Exchange) (id : String) : Prop :=
  (∃ p ∈ exchange.after.keyPackages, p.id = id) ∧ ∀ p ∈ exchange.before.keyPackages, p.id ≠ id

/-- The request handed out the package: before it the package was unclaimed, unexpired and stored for
an unrevoked device, and after it the package is claimed. -/
def HandsOut (exchange : Exchange) (item : DeviceKeyPackage) : Prop :=
  ∃ claimer, exchange.call.claimer = some claimer ∧
    ∃ target ∈ exchange.before.store.devices, target.revokedAt = none ∧
      ∃ package ∈ exchange.before.keyPackages, package.deviceID = target.id ∧
        package.available claimer.now ∧ item = claimedItem package target ∧
        handedOutRow package claimer.deviceID claimer.now ∈ exchange.after.keyPackages

end Exchange

variable {config : Config} {history : List Exchange} {db next : Database} {request : Request}
  {reply : Reply} {exchange : Exchange}

theorem handsOut_of_move (move : PackageMove config db request reply next) :
    (reply.packages.map (·.id)).Nodup ∧
      ∀ item ∈ reply.packages, Exchange.HandsOut ⟨db, request, .ok reply, next⟩ item := by
  cases move with
  | kept quiet | stored quiet | deleted quiet =>
    rw [quiet.2]
    exact ⟨List.nodup_nil, fun _ none => absurd none List.not_mem_nil⟩
  | swept => exact ⟨List.nodup_nil, fun _ none => absurd none List.not_mem_nil⟩
  | claimed isClaim claims =>
    exact ⟨claims.nodup, fun item given => ⟨_, isClaim, claims.exists_package given⟩⟩

/-- No package under the id can be handed out. -/
def Spent (id : String) (db : Database) : Prop :=
  ∀ p ∈ db.keyPackages, p.id = id → p.claimedAt ≠ none

/-- A spent id stays spent until a package is stored under it. -/
theorem spent_or_stores {id : String} (spent : Spent id db)
    (move : PackageMove config db request reply next) :
    Exchange.Stores ⟨db, request, .ok reply, next⟩ id ∨ Spent id next := by
  cases move with
  | kept _ same =>
    right
    unfold Spent
    rwa [same]
  | stored _ stored =>
    by_cases taken : ∃ p ∈ db.keyPackages, p.id = id
    · obtain ⟨old, known, rfl⟩ := taken
      refine .inr fun p mem same => ?_
      rcases stored.added p mem with kept | ⟨-, free⟩
      · exact spent p kept same
      · exact absurd same.symm (free old known)
    · by_cases added : ∃ p ∈ next.keyPackages, p.id = id
      · exact .inl ⟨added, fun p mem same => taken ⟨p, mem, same⟩⟩
      · exact .inr fun p mem same => absurd ⟨p, mem, same⟩ added
  | claimed _ claims =>
    refine .inr fun p mem same unclaimed => ?_
    exact spent p (claims.mem_of_unclaimed mem unclaimed) same unclaimed
  | deleted _ deleted => exact .inr fun p mem => spent p (deleted.subset p mem)
  | swept _ swept => exact .inr fun p mem => spent p (swept.subset p mem)

theorem spent_of_handsOut {item : DeviceKeyPackage}
    (handsOut : exchange.HandsOut item) : Spent item.id exchange.after := by
  obtain ⟨claimer, -, target, -, -, package, -, -, -, rfl, row⟩ := handsOut
  intro p mem same
  rw [Table.eq_of_key mem row same]
  exact Option.some_ne_none claimer.now

/-- The request handed out a package under the id. -/
def Exchange.Uses (exchange : Exchange) (id : String) : Prop := id ∈ exchange.handedOut.map (·.id)

theorem keyPackages_spending : Spending (Database.step config) Exchange.Uses Exchange.Stores Spent where
  use := by
    intro db request reply next id ok used
    obtain ⟨item, given, rfl⟩ := List.mem_map.mp used
    have handsOut := (handsOut_of_move (packageMove_of_step ok)).2 item given
    refine ⟨fun spent => ?_, spent_of_handsOut handsOut⟩
    obtain ⟨_, -, _, -, -, package, stored, -, available, rfl, -⟩ := handsOut
    exact spent package stored rfl available.1
  keep := fun ok spent => spent_or_stores spent (packageMove_of_step ok)
  refused := List.not_mem_nil

theorem handsOut_of_run (run : DatabaseRun config history db) (mem : exchange ∈ history) :
    (exchange.handedOut.map (·.id)).Nodup ∧ ∀ item ∈ exchange.handedOut, exchange.HandsOut item := by
  rcases run.committed_or_refused mem with ⟨reply, answered, ok⟩ | ⟨refusal, answered, -⟩
  · have handsOut := handsOut_of_move (packageMove_of_step ok)
    simp only [Exchange.handedOut, answered]
    exact handsOut
  · simp [Exchange.handedOut, answered]

/-- In every run of requests, a handed-out package was unclaimed, unexpired and of an unrevoked device;
no package is handed out twice unless it was stored again in between; and a claim for a conversation
takes a package of every other device or none at all. -/
theorem keyPackages_handed_out_once (run : DatabaseRun config history db) :
    (∀ exchange ∈ history, (exchange.handedOut.map (·.id)).Nodup ∧
      ∀ item ∈ exchange.handedOut, exchange.HandsOut item) ∧
    (∀ first between second, first :: between ++ [second] <:+: history →
      ∀ id ∈ first.handedOut.map (·.id), id ∈ second.handedOut.map (·.id) → ∃ exchange ∈ between, exchange.Stores id) ∧
    ∀ exchange ∈ history, ∀ now conversationID accountID deviceID,
      exchange.call = .keyPackage now (.claimConversation conversationID accountID deviceID) →
      if exchange.answer.isOk then
        exchange.handedOut.map (·.deviceID) = (claimTargets exchange.before.store conversationID deviceID).map (·.id)
      else exchange.after = exchange.before := by
  refine ⟨fun exchange => handsOut_of_run run, ?_, ?_⟩
  · intro first between second part id firstGives secondGives
    exact keyPackages_spending.restored_between run part firstGives secondGives
  · intro exchange member now conversationID accountID deviceID call
    rcases run.committed_or_refused member with ⟨reply, answered, committed⟩ | ⟨refusal, answered, kept⟩
    · rw [call] at committed
      simp only [Exchange.handedOut, answered]
      obtain ⟨⟨items, keyPackages⟩, ran, same⟩ := map_eq_ok.mp committed
      obtain rfl := congrArg Prod.fst same
      obtain ⟨-, ran⟩ := require_ok.mp ran
      exact (claimEach_ok (fun target listed => mem_claimTargets listed) ran).2
    · simp only [answered]
      exact kept

namespace Example

/-- Settings under which an account may claim one package of a device in a day. -/
def smallConfig : Config where
  limits := limits
  sessions := newSessionPolicy 0 0
  keyPackageClaimsPerTarget := 1
  devicesPerAccount := 5
  accountStorageBytes := 1000
  instanceStorageBytes := 1500
  accountBlobs := 10
  verifySignature := fun _ _ _ => true
  validOrigin := fun _ => true

/-- The history of serving requests from the start. -/
def served (requests : List Request) : List Exchange :=
  execHistory (Database.step smallConfig) .init requests

/-- The database after serving requests from the start. -/
def reached (requests : List Request) : Database :=
  exec (Database.step smallConfig) .init requests

theorem served_run (requests : List Request) :
    DatabaseRun smallConfig (served requests) (reached requests) :=
  run_exec _ _ requests

/-- What a person sends to register. -/
def registration (name reservationID : String) : RegisterInput :=
  ⟨reservationID, name, ⟨name ++ "'s password", "salt"⟩, "phone", [1], [2], "device-secret",
    name ++ "'s token", none, name ++ "-package"⟩

/-- Alice and Bob register, each with one device and its first key package, and share a conversation. -/
def friends : List Request :=
  [.reserve 0 (.owner "first" alice "alice-phone"),
    .enroll 0 (.createOwner (registration "alice" "first")),
    .reserve 0 (.registration "second" bob "bob-phone"),
    .enroll 0 (.registerWithInvite (registration "bob" "second")),
    .call ⟨.createOrGetConversation 1 "room" ⟨.group, none, none, none, alice, none, [bob]⟩, rfl⟩]

def aliceClaims (now : Time) : Request :=
  .keyPackage now (.claimConversation "room" alice "alice-phone")

def bobPublishes (now : Time) : Request :=
  .keyPackage now (.publish "bob-phone" [⟨"bob-spare", [3], openMLSCiphersuite, now + 30 * day⟩])

end Example

open Example in
/-- Alice gets Bob's package once; her second claim fails, and nothing is claimed. -/
theorem keyPackages_handed_out_once_friends :
    ∃ exchange ∈ served (friends ++ [aliceClaims 2, aliceClaims 3]),
      exchange.handedOut.map (·.id) = ["bob-package"] ∧ ∀ item ∈ exchange.handedOut, exchange.HandsOut item := by
  have claimed : ∃ exchange ∈ served (friends ++ [aliceClaims 2, aliceClaims 3]),
      exchange.handedOut.map (·.id) = ["bob-package"] := by decide +kernel
  obtain ⟨exchange, member, given⟩ := claimed
  have once := keyPackages_handed_out_once (served_run (friends ++ [aliceClaims 2, aliceClaims 3]))
  exact ⟨exchange, member, given, (once.1 exchange member).2⟩

/-- A package that an account was given. -/
structure Handout where
  claimer : Claimer
  item : DeviceKeyPackage
  deriving DecidableEq, Repr

/-- The packages that the request gave to its account. -/
def Exchange.handouts (exchange : Exchange) : List Handout :=
  match exchange.call.claimer with
  | some claimer => exchange.handedOut.map (⟨claimer, ·⟩)
  | none => []

/-- A package of another account's device, given to the account in the window that begins at `start`. -/
def Handout.Within (deviceID : DeviceID) (accountID : AccountID) (start : Time) (h : Handout) : Prop :=
  h.item.deviceID = deviceID ∧ h.item.accountID ≠ accountID ∧ h.claimer.accountID = accountID ∧
    start ≤ h.claimer.now ∧ h.claimer.now < start + keyPackageClaimWindow
  deriving Decidable

/-- The packages of the device that the account was given in the window. -/
def givenWithin (history : List Exchange) (deviceID : DeviceID) (accountID : AccountID) (start : Time) :
    List Handout :=
  (history.flatMap Exchange.handouts).filter (Handout.Within deviceID accountID start)

/-- The device that claims belongs to the account that claims. -/
def ClaimerEnrolled (store : Store) (claimer : Claimer) : Prop :=
  ∃ d ∈ store.devices, d.id = claimer.deviceID ∧ d.accountID = claimer.accountID
  deriving Decidable

def Request.sweepTime : Request → Option Time
  | pruneOperationalRows now => some now
  | _ => none

/-- A claim comes from a device of its account, and a sweep finds no package that has expired within a
day of being claimed. -/
structure ClaimsStayCounted (db : Database) (request : Request) : Prop where
  authenticated : ∀ claimer ∈ request.claimer, ClaimerEnrolled db.store claimer
  sweep : ∀ now ∈ request.sweepTime, ∀ p ∈ db.keyPackages, p.expiresAt < now →
    ∀ claimedAt ∈ p.claimedAt, claimedAt + keyPackageClaimWindow ≤ now

instance (db : Database) (request : Request) : Decidable (ClaimsStayCounted db request) :=
  decidable_of_iff (_ ∧ _) ⟨fun ⟨authenticated, sweep⟩ => ⟨authenticated, sweep⟩,
    fun ⟨authenticated, sweep⟩ => ⟨authenticated, sweep⟩⟩

/-- The handout is recent at every sweep so far, and its device is unrevoked. -/
def Handout.Counts (sweeps : List Time) (store : Store) (h : Handout) : Prop :=
  (∀ now ∈ sweeps, now < h.claimer.now + keyPackageClaimWindow) ∧
    ∃ d ∈ store.devices, d.id = h.item.deviceID ∧ d.revokedAt = none

/-- The row that a handout leaves. -/
def Handout.IsRow (h : Handout) (p : KeyPackage) : Prop :=
  p.id = h.item.id ∧ p.deviceID = h.item.deviceID ∧ p.claimedAt = some h.claimer.now ∧
    p.claimedByDeviceID = some h.claimer.deviceID

/-- Every handout that counts has its own row, and no window holds more handouts than the limit. -/
structure Accounted (limit : ℕ) (sweeps : List Time) (handouts : List Handout) (store : Store)
    (packages : KeyPackages) : Prop where
  claimers : ∀ h ∈ handouts, ClaimerEnrolled store h.claimer
  targets : ∀ h ∈ handouts, ∃ d ∈ store.devices, d.id = h.item.deviceID
  rows : ∀ h ∈ handouts, h.Counts sweeps store → ∃ p ∈ packages, h.IsRow p
  distinct : handouts.Pairwise fun first second =>
    first.Counts sweeps store → first.item.id ≠ second.item.id
  limited : ∀ deviceID accountID start, (handouts.filter (Handout.Within deviceID accountID start)).length ≤ limit

section Accounted

variable {limit : ℕ} {sweeps : List Time} {handouts : List Handout} {store : Store}
  {packages packages' : KeyPackages} {claimer : Claimer} {target : Device} {package : KeyPackage}

theorem Accounted.frame {sweeps' : List Time} {store' : Store}
    (accounted : Accounted limit sweeps handouts store packages) (kept : store.DevicesKept store')
    (more : sweeps ⊆ sweeps')
    (rows : ∀ h ∈ handouts, h.Counts sweeps' store' → ∀ p ∈ packages, h.IsRow p → p ∈ packages') :
    Accounted limit sweeps' handouts store' packages' := by
  have counted : ∀ h ∈ handouts, h.Counts sweeps' store' → h.Counts sweeps store := by
    rintro h mem ⟨recent, d', stored, same, unrevoked⟩
    obtain ⟨d, known, target⟩ := accounted.targets h mem
    obtain ⟨d'', stays, sameID, -, revoked⟩ := kept d known
    have : d'' = d' := Table.eq_of_key stays stored (sameID.trans (target.trans same.symm))
    exact ⟨fun now swept => recent now (more swept), d, known, target, revoked (this ▸ unrevoked)⟩
  refine ⟨?_, ?_, ?_, ?_, accounted.limited⟩
  · intro h mem
    obtain ⟨d, known, sameID, owned⟩ := accounted.claimers h mem
    obtain ⟨d', stays, keptID, keptOwner, -⟩ := kept d known
    exact ⟨d', stays, keptID.trans sameID, keptOwner.trans owned⟩
  · intro h mem
    obtain ⟨d, known, target⟩ := accounted.targets h mem
    obtain ⟨d', stays, keptID, -⟩ := kept d known
    exact ⟨d', stays, keptID.trans target⟩
  · intro h mem counts
    obtain ⟨p, stored, row⟩ := accounted.rows h mem (counted h mem counts)
    exact ⟨p, rows h mem counts p stored row, row⟩
  · apply accounted.distinct.imp_of_mem
    intro first second mem _ differ counts
    exact differ (counted first mem counts)

/-- What the window held so far is counted by a claim within it. -/
theorem Accounted.length_le_recentClaims (accounted : Accounted limit sweeps handouts store packages)
    (active : target ∈ store.devices) (unrevoked : target.revokedAt = none) {now start : Time}
    {accountID : AccountID} (clock : ∀ swept ∈ sweeps, swept ≤ now)
    (early : now < start + keyPackageClaimWindow) :
    (handouts.filter (Handout.Within target.id accountID start)).length ≤
      (recentClaims store packages target.id accountID now).length := by
  have counts : ∀ h ∈ handouts.filter (Handout.Within target.id accountID start), h.Counts sweeps store := by
    intro h mem
    obtain ⟨-, sameDevice, -, -, late, -⟩ := List.mem_filter.mp mem |>.imp id of_decide_eq_true
    refine ⟨fun swept ran => ?_, target, active, sameDevice.symm, unrevoked⟩
    exact ((clock swept ran).trans_lt early).trans_le (Nat.add_le_add_right late _)
  have nodup : ((handouts.filter (Handout.Within target.id accountID start)).map (·.item.id)).Nodup := by
    refine List.pairwise_map.mpr ((accounted.distinct.filter _).imp_of_mem ?_)
    intro first second mem _ differ
    exact differ (counts first mem)
  have subset : (handouts.filter (Handout.Within target.id accountID start)).map (·.item.id) ⊆
      (recentClaims store packages target.id accountID now).map (·.id) := by
    intro id named
    obtain ⟨h, mem, rfl⟩ := List.mem_map.mp named
    obtain ⟨given, sameDevice, -, sameAccount, late, -⟩ :=
      List.mem_filter.mp mem |>.imp id of_decide_eq_true
    obtain ⟨p, stored, sameID, device, claimedAt, claimedBy⟩ := accounted.rows h given (counts h mem)
    obtain ⟨d, known, claimer, owner⟩ := accounted.claimers h given
    refine List.mem_map.mpr ⟨p, List.mem_filter.mpr ⟨stored, decide_eq_true ?_⟩, sameID⟩
    refine ⟨device.trans sameDevice, ⟨h.claimer.now, claimedAt, ?_⟩, d, known, ?_, ?_⟩
    · exact early.trans_le (Nat.add_le_add_right late _)
    · rw [claimedBy, claimer]
    · exact owner.trans sameAccount
  have := (nodup.subperm subset).length_le
  rwa [List.length_map, List.length_map] at this

section

variable (accounted : Accounted config.keyPackageClaimsPerTarget sweeps handouts store packages)
  (enrolled : ClaimerEnrolled store claimer) (clock : ∀ swept ∈ sweeps, swept ≤ claimer.now)

include accounted enrolled clock

theorem Accounted.handOut (active : target ∈ store.devices) (unrevoked : target.revokedAt = none)
    (allowed : keyPackageClaimAllowed config store packages target claimer.accountID claimer.now)
    (found : nextKeyPackage packages target.id claimer.now = some package) :
    Accounted config.keyPackageClaimsPerTarget sweeps (handouts ++ [⟨claimer, claimedItem package target⟩])
      store (Database.handOut packages package claimer.deviceID claimer.now) := by
  obtain ⟨stored, owned, available⟩ := nextKeyPackage_eq_some found
  refine ⟨?_, ?_, ?_, ?_, ?_⟩
  · intro h mem
    rcases List.mem_append.mp mem with old | new
    · exact accounted.claimers h old
    · rw [List.mem_singleton.mp new]
      exact enrolled
  · intro h mem
    rcases List.mem_append.mp mem with old | new
    · exact accounted.targets h old
    · rw [List.mem_singleton.mp new]
      exact ⟨target, active, rfl⟩
  · intro h mem counts
    rcases List.mem_append.mp mem with old | new
    · obtain ⟨p, kept, row⟩ := accounted.rows h old counts
      have claimed : p.claimedAt ≠ none := row.2.2.1 ▸ Option.some_ne_none _
      exact ⟨p, mem_handOut.mpr (.inl ⟨kept, fun hit => claimed hit.2⟩), row⟩
    · rw [List.mem_singleton.mp new]
      exact ⟨_, handedOutRow_mem found, rfl, owned, rfl, rfl⟩
  · refine List.pairwise_append.mpr ⟨accounted.distinct, List.pairwise_singleton _ _, ?_⟩
    intro h old new mem counts same
    rw [List.mem_singleton.mp mem] at same
    -- the row of the old handout is claimed, and the package is not
    obtain ⟨p, kept, sameID, -, claimedAt, -⟩ := accounted.rows h old counts
    have row := Table.eq_of_key kept stored (sameID.trans same)
    rw [row, available.1] at claimedAt
    cases claimedAt
  · intro deviceID accountID start
    by_cases within : Handout.Within deviceID accountID start ⟨claimer, claimedItem package target⟩
    · obtain ⟨rfl, other, rfl, late, early⟩ := id within
      have below := allowed.resolve_left other
      have held := (accounted.length_le_recentClaims active unrevoked clock early).trans_lt below
      simp only [List.filter_append, List.filter_cons, within, decide_true, if_true, List.filter_nil,
        List.length_append, List.length_singleton]
      exact held
    · simpa [List.filter_append, within] using accounted.limited deviceID accountID start

/-- The claims of one request are counted one after the other. -/
theorem Accounted.claims {items : List DeviceKeyPackage}
    (claims : Claims config store claimer.accountID claimer.deviceID claimer.now packages items packages') :
    Accounted config.keyPackageClaimsPerTarget sweeps (handouts ++ items.map (⟨claimer, ·⟩)) store
      packages' := by
  induction claims generalizing handouts with
  | nil => simpa using accounted
  | cons active unrevoked allowed found _ ih =>
    have first := accounted.handOut enrolled clock active unrevoked allowed found
    simpa using ih first

end

end Accounted

def sweepTimes (history : List Exchange) : List Time :=
  history.filterMap (·.call.sweepTime)

theorem sweepTimes_subset (history : List Exchange) :
    sweepTimes history ⊆ history.filterMap (·.call.now) := by
  intro now swept
  obtain ⟨exchange, mem, hit⟩ := List.mem_filterMap.mp swept
  refine List.mem_filterMap.mpr ⟨exchange, mem, ?_⟩
  unfold Request.sweepTime at hit
  split at hit
  · next called =>
    rw [called]
    exact hit
  · cases hit

theorem Request.now_of_claimer {claimer : Claimer} (isClaim : request.claimer = some claimer) :
    request.now = some claimer.now := by
  unfold Request.claimer at isClaim
  split at isClaim <;> cases isClaim <;> rfl

theorem handouts_of_quiet {answer : Except StoreError Reply} (quiet : request.claimer = none) :
    Exchange.handouts ⟨db, request, answer, next⟩ = [] := by
  simp only [Exchange.handouts, quiet]

/-- What the claims of a history left in the database. -/
def ClaimsAccounted (config : Config) (history : List Exchange) (db : Database) : Prop :=
  Accounted config.keyPackageClaimsPerTarget (sweepTimes history) (history.flatMap Exchange.handouts)
    db.store db.keyPackages

theorem sweepTimes_append (history : List Exchange) (exchange : Exchange) :
    sweepTimes history ⊆ sweepTimes (history ++ [exchange]) := by
  rw [sweepTimes, sweepTimes, List.filterMap_append]
  exact List.subset_append_left _ _

theorem ClaimsAccounted.refuse {refusal : StoreError} (accounted : ClaimsAccounted config history db) :
    ClaimsAccounted config (history ++ [⟨db, request, .error refusal, db⟩]) db := by
  have nothing : Exchange.handouts ⟨db, request, .error refusal, db⟩ = [] := by
    simp only [Exchange.handouts, Exchange.handedOut]
    split <;> rfl
  unfold ClaimsAccounted
  rw [List.flatMap_append, List.flatMap_singleton, nothing, List.append_nil]
  exact accounted.frame (.refl _) (sweepTimes_append _ _) fun _ _ _ _ stored _ => stored

theorem ClaimsAccounted.commit (accounted : ClaimsAccounted config history db)
    (guarded : ClaimsStayCounted db request)
    (clock : ClockAdvances (history ++ [⟨db, request, .ok reply, next⟩]))
    (ok : Database.step config db request = .ok (reply, next)) :
    ClaimsAccounted config (history ++ [⟨db, request, .ok reply, next⟩]) next := by
  have kept := devicesKept_of_step ok
  have more := sweepTimes_append history ⟨db, request, .ok reply, next⟩
  have move := packageMove_of_step ok
  unfold ClaimsAccounted
  rw [List.flatMap_append, List.flatMap_singleton]
  cases move with
  | kept quiet same =>
    rw [handouts_of_quiet quiet.1, List.append_nil]
    exact accounted.frame kept more fun _ _ _ p stored _ => same ▸ stored
  | stored quiet stored =>
    rw [handouts_of_quiet quiet.1, List.append_nil]
    exact accounted.frame kept more fun _ _ _ p mem _ => stored.kept p mem
  | deleted quiet deleted =>
    rw [handouts_of_quiet quiet.1, List.append_nil]
    refine accounted.frame kept more fun h _ counts p stored row => ?_
    refine (deleted.rest p stored).resolve_right ?_
    rintro ⟨d, known, sameDevice, revoked⟩
    obtain ⟨-, d', known', sameDevice', unrevoked⟩ := counts
    rw [Table.eq_of_key known known' (sameDevice.trans (row.2.1.trans sameDevice'.symm))] at revoked
    exact revoked unrevoked
  | @swept now _ _ swept =>
    rw [handouts_of_quiet rfl, List.append_nil]
    refine accounted.frame kept more fun h _ counts p stored row => ?_
    refine (swept.rest p stored).resolve_right fun stale => ?_
    have recent := counts.1 now (by simp [sweepTimes, Request.sweepTime])
    rcases (mem_sweepPage stale).2 with expired | ⟨claimedAt, claimed, old⟩
    · exact absurd (guarded.sweep now rfl p stored expired _ row.2.2.1) (Nat.not_le.mpr recent)
    · rw [row.2.2.1] at claimed
      cases claimed
      have longer : keyPackageClaimWindow ≤ operationalRowRetention := by decide
      exact absurd old (recent.trans_le (Nat.add_le_add_left longer _)).not_gt
  | @claimed _ claimer items keyPackages isClaim claims =>
    have same : sweepTimes (history ++ [⟨db, request, .ok (.keyPackages items), { db with keyPackages }⟩]) =
        sweepTimes history := by
      cases request <;> first | cases isClaim | simp [sweepTimes, Request.sweepTime]
    rw [same]
    simp only [Exchange.handouts, isClaim]
    refine Accounted.claims accounted (guarded.authenticated claimer isClaim) ?_ claims
    exact fun swept ran => clock.le_now (Request.now_of_claimer isClaim) swept (sweepTimes_subset history ran)

/-- Suppose that every claim comes from a device of its account, that the clock does not go backwards,
and that every sweep finds no package that has expired within a day of being claimed. Then no account is
given more packages of another account's device in a day than the limit allows. -/
theorem keyPackage_claims_limited
    (run : Run (Database.step config) ClaimsStayCounted Database.init history db)
    (clock : ClockAdvances history) (deviceID : DeviceID) (accountID : AccountID) (start : Time) :
    (givenWithin history deviceID accountID start).length ≤ config.keyPackageClaimsPerTarget := by
  suffices ClockAdvances history → ClaimsAccounted config history db from
    (this clock).limited deviceID accountID start
  refine run.preserves_history (fun history db => ClockAdvances history → ClaimsAccounted config history db)
    ?_ ?_ ?_
  · intro _
    exact ⟨nofun, nofun, nofun, .nil, fun _ _ _ => Nat.zero_le _⟩
  · intro history db request reply next _ guarded accounted committed clock
    exact (accounted clock.earlier).commit guarded clock committed
  · intro history db request refusal _ _ accounted _ clock
    exact (accounted clock.earlier).refuse

namespace Example

/-- Alice claims Bob's first package an hour before it expires, and his spare one two hours after; in
between the sweep runs. -/
def sweptBetween : List Request :=
  friends ++ [aliceClaims (30 * day - hour), bobPublishes (30 * day), .pruneOperationalRows (30 * day + hour),
    aliceClaims (30 * day + 2 * hour)]

/-- Alice claims both packages, two days apart. -/
def twoDaysApart : List Request :=
  friends ++ [aliceClaims (day), bobPublishes (2 * day), .pruneOperationalRows (2 * day), aliceClaims (3 * day)]

end Example

open Example in
/-- Claims two days apart are within the limit. -/
theorem keyPackage_claims_limited_two_days :
    (givenWithin (served twoDaysApart) "bob-phone" alice day).length ≤ 1 := by
  have allowed : ∀ exchange ∈ served twoDaysApart, ClaimsStayCounted exchange.before exchange.call := by decide +kernel
  exact keyPackage_claims_limited (Run.start.extend twoDaysApart allowed) (by decide +kernel) _ _ _

open Example in
/-- The sweep deletes the claimed package once it has expired, so Alice gets two packages of Bob's device
within three hours, although the limit is one a day. -/
theorem keyPackage_claims_exceed_after_sweep :
    smallConfig.keyPackageClaimsPerTarget = 1 ∧ ClockAdvances (served sweptBetween) ∧
      ((givenWithin (served sweptBetween) "bob-phone" alice (30 * day - hour)).map (·.item.id)) =
        ["bob-package", "bob-spare"] := by
  decide +kernel

end Veritra.Storage
