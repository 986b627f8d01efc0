import Veritra.Proofs.Storage.Outcome

/-! # What happens to key packages

A committed request leaves the key packages alone, stores new ones, hands some out, or deletes some:
those of a deleted account, whose devices are all revoked, or a page of old ones.
-/

namespace Veritra.Storage

open Relational Machine

variable {packages' : KeyPackages} {now : Time} {items : List DeviceKeyPackage}

/-- The old rows stay, and the new ones are unclaimed under ids that were free. -/
structure PackagesStored (packages packages' : KeyPackages) : Prop where
  kept : ∀ p ∈ packages, p ∈ packages'
  added : ∀ p ∈ packages', p ∈ packages ∨ p.claimedAt = none ∧ ∀ old ∈ packages, old.id ≠ p.id

theorem KeyPackages.insertEach_ok {packages : KeyPackages} {deviceID : DeviceID}
    {new : List NewDeviceKeyPackage} (stored : packages.insertEach deviceID now new = .ok packages') :
    PackagesStored packages packages' := by
  induction new generalizing packages with
  | nil =>
    cases stored
    exact ⟨fun _ => id, fun _ => .inl⟩
  | cons first rest ih =>
    unfold KeyPackages.insertEach at stored
    split at stored
    · cases stored
    · next middle inserted =>
      have members := Table.mem_of_insert? inserted
      have later := ih stored
      refine ⟨fun p known => later.kept p ((members p).mpr (.inl known)), fun p mem => ?_⟩
      rcases later.added p mem with known | ⟨unclaimed, fresh⟩
      · rcases (members p).mp known with old | rfl
        · exact .inl old
        · exact .inr ⟨rfl, Table.free_of_insert? inserted⟩
      · exact .inr ⟨unclaimed, fun old known => fresh old ((members old).mpr (.inl known))⟩

namespace Database

variable {package p : KeyPackage} {targets : List Device} {conversationID : ConversationID}

variable {config : Config} {store : Store} {accountID : AccountID} {deviceID : DeviceID}

theorem nextKeyPackage_eq_some {packages : KeyPackages}
    (found : nextKeyPackage packages deviceID now = some package) :
    package ∈ packages ∧ package.deviceID = deviceID ∧ package.available now := by
  have first := List.mem_of_mem_head? (Option.mem_def.mpr found)
  rw [List.mem_insertionSort, List.mem_filter, decide_eq_true_eq] at first
  exact first

theorem mem_handOut {packages : KeyPackages} : p ∈ handOut packages package deviceID now ↔
      (p ∈ packages ∧ ¬ (p.id = package.id ∧ p.claimedAt = none)) ∨
      ∃ old ∈ packages, (old.id = package.id ∧ old.claimedAt = none) ∧
        { old with claimedAt := some now, claimedByDeviceID := some deviceID } = p := by
  simp only [handOut, Table.mem_update]

/-- One package after the other is handed out, each to an allowed claim on an unrevoked device. -/
inductive Claims (config : Config) (store : Store) (accountID : AccountID) (deviceID : DeviceID)
    (now : Time) : KeyPackages → List DeviceKeyPackage → KeyPackages → Prop
  | nil {packages : KeyPackages} : Claims config store accountID deviceID now packages [] packages
  | cons {packages packages' : KeyPackages} {target : Device} {package : KeyPackage}
      {items : List DeviceKeyPackage} (mem : target ∈ store.devices)
      (unrevoked : target.revokedAt = none)
      (allowed : keyPackageClaimAllowed config store packages target accountID now)
      (found : nextKeyPackage packages target.id now = some package)
      (rest : Claims config store accountID deviceID now (handOut packages package deviceID now) items
        packages') :
      Claims config store accountID deviceID now packages (claimedItem package target :: items) packages'

/-- The row of a package that was handed out. -/
def handedOutRow (package : KeyPackage) (deviceID : DeviceID) (now : Time) : KeyPackage :=
  { package with claimedAt := some now, claimedByDeviceID := some deviceID }

theorem handedOutRow_mem {packages : KeyPackages} {target : DeviceID}
    (found : nextKeyPackage packages target now = some package) :
    handedOutRow package deviceID now ∈ handOut packages package deviceID now := by
  obtain ⟨mem, -, unclaimed, -⟩ := nextKeyPackage_eq_some found
  exact mem_handOut.mpr (.inr ⟨package, mem, ⟨rfl, unclaimed⟩, rfl⟩)

namespace Claims

variable {packages : KeyPackages}

section

variable (claims : Claims config store accountID deviceID now packages items packages')
include claims

/-- A claimed row is not written again. -/
theorem mem_of_claimed (mem : p ∈ packages) (claimed : p.claimedAt ≠ none) : p ∈ packages' := by
  induction claims with
  | nil => exact mem
  | cons _ _ _ _ _ ih => exact ih (mem_handOut.mpr (.inl ⟨mem, fun hit => claimed hit.2⟩))

theorem mem_of_unclaimed (mem : p ∈ packages') (unclaimed : p.claimedAt = none) : p ∈ packages := by
  induction claims with
  | nil => exact mem
  | cons _ _ _ _ _ ih =>
    rcases mem_handOut.mp (ih mem) with ⟨old, -⟩ | ⟨_, -, -, rfl⟩
    · exact old
    · cases unclaimed

theorem exists_package {item : DeviceKeyPackage} (given : item ∈ items) :
    ∃ target ∈ store.devices, target.revokedAt = none ∧
      ∃ package ∈ packages, package.deviceID = target.id ∧ package.available now ∧
        item = claimedItem package target ∧ handedOutRow package deviceID now ∈ packages' := by
  induction claims with
  | nil => cases given
  | @cons packages packages' target package items mem unrevoked _ found rest ih =>
    rcases List.mem_cons.mp given with rfl | later
    · obtain ⟨stored, owned, available⟩ := nextKeyPackage_eq_some found
      have row := rest.mem_of_claimed (handedOutRow_mem found) (Option.some_ne_none now)
      exact ⟨target, mem, unrevoked, package, stored, owned, available, rfl, row⟩
    · obtain ⟨other, active, valid, p, stored, rest⟩ := ih later
      rcases mem_handOut.mp stored with ⟨old, -⟩ | ⟨_, -, -, rfl⟩
      · exact ⟨other, active, valid, p, old, rest⟩
      · cases rest.2.1.1

theorem nodup : (items.map (·.id)).Nodup := by
  induction claims with
  | nil => exact List.nodup_nil
  | cons _ _ _ found rest ih =>
    refine List.nodup_cons.mpr ⟨fun again => ?_, ih⟩
    obtain ⟨item, given, same⟩ := List.mem_map.mp again
    obtain ⟨_, -, -, p, stored, -, available, rfl, -⟩ := rest.exists_package given
    -- the row under this id is claimed already
    have row := Table.eq_of_key stored (handedOutRow_mem found) same
    rw [row] at available
    cases available.1

end

end Claims

theorem claimEach_ok {packages : KeyPackages}
    (active : ∀ target ∈ targets, target ∈ store.devices ∧ target.revokedAt = none)
    (claimed : claimEach config store accountID deviceID now packages targets = .ok (items, packages')) :
    Claims config store accountID deviceID now packages items packages' ∧
      items.map (·.deviceID) = targets.map (·.id) := by
  induction targets generalizing packages items with
  | nil =>
    cases claimed
    exact ⟨.nil, rfl⟩
  | cons target rest ih =>
    obtain ⟨allowed, claimed⟩ := require_ok.mp claimed
    split at claimed
    · next package found =>
      have claimed := of_require claimed
      obtain ⟨⟨others, after⟩, recursion, claimed⟩ := bind_eq_ok.mp claimed
      cases claimed
      obtain ⟨mem, unrevoked⟩ := active target List.mem_cons_self
      obtain ⟨claims, devices⟩ := ih (fun t later => active t (List.mem_cons_of_mem _ later)) recursion
      exact ⟨.cons mem unrevoked allowed found claims, congrArg (target.id :: ·) devices⟩
    · cases claimed

theorem claimSome_claims (packages : KeyPackages)
    (active : ∀ target ∈ targets, target ∈ store.devices ∧ target.revokedAt = none) :
    Claims config store accountID deviceID now packages
      (claimSome config store accountID deviceID now packages targets).1
      (claimSome config store accountID deviceID now packages targets).2 := by
  induction targets generalizing packages with
  | nil => exact .nil
  | cons target rest ih =>
    have others : ∀ t ∈ rest, t ∈ store.devices ∧ t.revokedAt = none :=
      fun t later => active t (List.mem_cons_of_mem _ later)
    obtain ⟨mem, unrevoked⟩ := active target List.mem_cons_self
    unfold claimSome
    split
    · next package found =>
      split
      · next allowed => exact .cons mem unrevoked allowed found (ih _ others)
      · exact ih _ others
    · exact ih _ others

theorem mem_claimTargets {target : Device} (listed : target ∈ claimTargets store conversationID deviceID) :
    target ∈ store.devices ∧ target.revokedAt = none := by
  rw [claimTargets, List.mem_insertionSort, List.mem_filter, decide_eq_true_eq] at listed
  exact ⟨listed.1, listed.2.2.1⟩

theorem mem_listedTargets {seen deviceIDs : List DeviceID}
    (listed : listedTargets store conversationID deviceID seen deviceIDs = .ok targets) :
    ∀ target ∈ targets, target ∈ store.devices ∧ target.revokedAt = none := by
  induction deviceIDs generalizing seen targets with
  | nil =>
    cases listed
    exact fun _ none => absurd none List.not_mem_nil
  | cons first rest ih =>
    have listed := of_require listed
    split at listed
    · next target found =>
      obtain ⟨⟨-, unrevoked⟩, listed⟩ := require_ok.mp listed
      obtain ⟨others, recursion, listed⟩ := bind_eq_ok.mp listed
      cases listed
      rintro t (_ | ⟨_, later⟩)
      · exact ⟨(Table.find?_eq_some.mp found).1, unrevoked⟩
      · exact ih recursion t later
    · cases listed

end Database

/-- Who claims, and when. -/
structure Claimer where
  now : Time
  accountID : AccountID
  deviceID : DeviceID
  deriving DecidableEq, Repr

/-- The claimer of a request that claims key packages. -/
def Request.claimer : Request → Option Claimer
  | keyPackage now (.claimConversation _ accountID deviceID)
  | keyPackage now (.claimDevices _ accountID deviceID _) => some ⟨now, accountID, deviceID⟩
  | _ => none

def Reply.packages : Reply → List DeviceKeyPackage
  | keyPackages items => items
  | _ => []

/-- The request claims no package, and the reply holds none. -/
def ClaimsNothing (request : Request) (reply : Reply) : Prop :=
  request.claimer = none ∧ reply.packages = []

namespace Database

/-- The rows that a request deletes are those of revoked devices or old ones. -/
structure PackagesDeleted (packages packages' : KeyPackages) (gone : KeyPackage → Prop) : Prop where
  subset : ∀ p ∈ packages', p ∈ packages
  rest : ∀ p ∈ packages, p ∈ packages' ∨ gone p

def revokedPackage (db : Database) (package : KeyPackage) : Prop :=
  ∃ d ∈ db.store.devices, d.id = package.deviceID ∧ d.revokedAt ≠ none

/-- What a committed request did to the key packages. -/
inductive PackageMove (config : Config) (db : Database) : Request → Reply → Database → Prop
  | kept {request : Request} {reply : Reply} {next : Database} (quiet : ClaimsNothing request reply)
      (same : next.keyPackages = db.keyPackages) : PackageMove config db request reply next
  | stored {request : Request} {reply : Reply} {next : Database} (quiet : ClaimsNothing request reply)
      (stored : PackagesStored db.keyPackages next.keyPackages) : PackageMove config db request reply next
  | claimed {request : Request} {claimer : Claimer} {items : List DeviceKeyPackage}
      {keyPackages : KeyPackages} (isClaim : request.claimer = some claimer)
      (claims : Claims config db.store claimer.accountID claimer.deviceID claimer.now db.keyPackages items
        keyPackages) : PackageMove config db request (.keyPackages items) { db with keyPackages }
  | deleted {request : Request} {reply : Reply} {next : Database} (quiet : ClaimsNothing request reply)
      (deleted : PackagesDeleted db.keyPackages next.keyPackages next.revokedPackage) :
      PackageMove config db request reply next
  | swept {now : Time} {next : Database} (devices : next.store.devices = db.store.devices)
      (swept : PackagesDeleted db.keyPackages next.keyPackages (· ∈ db.staleKeyPackages now)) :
      PackageMove config db (.pruneOperationalRows now) .done next

variable {config : Config} {db next : Database} {keyPackages : KeyPackages}

theorem DeviceKeysInserted.stored {device : NewDevice} {deviceKeys : Table DeviceKeys DeviceKeys.deviceID}
    (inserted : DeviceKeysInserted db now device deviceKeys keyPackages) :
    PackagesStored db.keyPackages keyPackages :=
  KeyPackages.insertEach_ok inserted.packages

theorem keyPackageMove {request : KeyPackageRequest}
    (served : keyPackageStep config db now request = .ok (items, keyPackages)) :
    PackageMove config db (.keyPackage now request) (.keyPackages items) { db with keyPackages } := by
  cases request with
  | publish deviceID new =>
    obtain ⟨_, ran, same⟩ := map_eq_ok.mp served
    cases same
    have ran := of_require ran
    have ran := of_require ran
    exact .stored ⟨rfl, rfl⟩ (KeyPackages.insertEach_ok ran)
  | claimConversation conversationID accountID deviceID =>
    have ran := of_require served
    obtain ⟨claims, -⟩ := claimEach_ok (fun target listed => mem_claimTargets listed) ran
    exact .claimed rfl claims
  | claimDevices conversationID accountID deviceID deviceIDs =>
    have ran := of_require served
    have ran := of_require ran
    have ran := of_require ran
    obtain ⟨targets, listed, ran⟩ := bind_eq_ok.mp ran
    have claims : Claims config db.store accountID deviceID now db.keyPackages _ _ :=
      claimSome_claims db.keyPackages (mem_listedTargets listed)
    rw [pure_eq_ok.mp ran] at claims
    exact .claimed rfl claims

theorem PackagesDeleted.of_delete (packages : KeyPackages) (p : KeyPackage → Prop) [DecidablePred p]
    {gone : KeyPackage → Prop} (selects : ∀ package, p package → gone package) :
    PackagesDeleted packages (packages.delete p) gone where
  subset := fun _ mem => (Table.mem_delete.mp mem).1
  rest := fun package mem => by
    by_cases selected : p package
    · exact .inr (selects package selected)
    · exact .inl (Table.mem_delete.mpr ⟨mem, selected⟩)

theorem mem_sweepPage {ρ : Type} {rows : List ρ} {p : ρ → Prop} [DecidablePred p] {time : ρ → Time}
    {key : ρ → String} {row : ρ} (listed : row ∈ sweepPage rows p time key) : row ∈ rows ∧ p row := by
  have sorted := List.mem_of_mem_take listed
  rw [List.mem_insertionSort, List.mem_filter, decide_eq_true_eq] at sorted
  exact sorted

theorem scrubbed_packagesDeleted (db : Database) {s : Store} {accountID : AccountID}
    (accounts : AccountTables) {retired : Store}
    (deleted : s.AccountDeleted now accountID retired db.store) :
    PackagesDeleted db.keyPackages (db.scrubbed now accountID accounts).keyPackages
      (db.scrubbed now accountID accounts).revokedPackage := by
  apply PackagesDeleted.of_delete
  rintro package ⟨d, mem, sameDevice, owned⟩
  have revoked := Store.allRevoked_of_deleted deleted d
    (by rwa [(withoutAccountLinks_retires db now accountID).devices] at mem) owned
  refine ⟨d, ?_, sameDevice, revoked⟩
  simp only [scrubbed, enqueueEach_devices]
  exact mem

/-- What a committed request did to the key packages. -/
theorem packageMove_of_step {request : Request} {reply : Reply}
    (ok : step config db request = .ok (reply, next)) :
    PackageMove config db request reply next := by
  cases outcome_of_step ok with
  | keyPackage served => exact keyPackageMove served
  | revoked _ _ => exact .kept ⟨rfl, rfl⟩ (dropDevice_retires _ _ _ _).keyPackages
  | @deleted _ _ _ left _ _ accounts called deletes =>
    rw [deletes] at called
    obtain ⟨⟨keys, after⟩, ran, same⟩ := map_eq_ok.mp called
    cases same
    obtain ⟨retired, deleted⟩ := Store.deleteAccountData_ok ran
    have deleted := scrubbed_packagesDeleted (db.withStore left) accounts deleted
    exact .deleted ⟨rfl, rfl⟩ deleted
  | registered _ registered =>
    exact .stored ⟨rfl, rfl⟩ registered.device.stored
  | legacyApproved _ inserted => exact .stored ⟨rfl, rfl⟩ inserted.stored
  | approved _ _ _ outcome =>
    cases outcome with
    | repeated => exact .kept ⟨rfl, rfl⟩ rfl
    | approved _ _ _ device => exact .stored ⟨rfl, rfl⟩ device.stored
  | completed _ _ _ _ outcome => cases outcome <;> exact .kept ⟨rfl, rfl⟩ rfl
  | history served => exact .kept ⟨rfl, rfl⟩ (historyStep_retires served).keyPackages
  | blob served => exact .kept ⟨rfl, rfl⟩ (blobStep_frame served).keyPackages
  | recoveryAnswered _ _ _ outcome =>
    cases outcome with
    | completed _ _ _ _ _ _ recovered => exact .stored ⟨rfl, rfl⟩ recovered.device.stored
    | _ => exact .kept ⟨rfl, rfl⟩ rfl
  | @pruned now =>
    have same := (db.retireStaleHistory_retires now).keyPackages
    have deleted := PackagesDeleted.of_delete (db.retireStaleHistory now).keyPackages
      (· ∈ (db.retireStaleHistory now).staleKeyPackages now) (fun _ stale => stale)
    exact .swept (db.retireStaleHistory_retires now).devices deleted
  | _ => exact .kept ⟨rfl, rfl⟩ rfl

end Database
end Veritra.Storage
