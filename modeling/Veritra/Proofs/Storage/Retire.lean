import Veritra.Model.Storage.Service
import Veritra.Proofs.Storage.Blobs

/-! # Retired history

Retiring uploads, transfers and links writes the blob tables, the links and the deletion queue. All
other tables stay as they are, so an operation that retires history is looked at table by table.
-/

namespace Veritra.Storage

open Relational Machine

namespace Database

/-- Only the blob tables, the links and the deletion queue may differ. -/
structure Retires (db next : Database) : Prop where
  store : next.store = { db.store with blobDeletions := next.store.blobDeletions }
  accounts : next.accounts = db.accounts
  sessions : next.sessions = db.sessions
  keyPackages : next.keyPackages = db.keyPackages
  recoveries : next.recoveries = db.recoveries

namespace Retires

variable {db middle next : Database}

theorem refl (db : Database) : Retires db db := ⟨rfl, rfl, rfl, rfl, rfl⟩

theorem trans (first : Retires db middle) (second : Retires middle next) : Retires db next where
  store := by rw [second.store, first.store]
  accounts := second.accounts.trans first.accounts
  sessions := second.sessions.trans first.sessions
  keyPackages := second.keyPackages.trans first.keyPackages
  recoveries := second.recoveries.trans first.recoveries

theorem devices (retires : Retires db next) : next.store.devices = db.store.devices := by
  rw [retires.store]

end Retires

section

variable (db : Database)

theorem retireHistoryIntents_retires (p : UploadIntent → Prop) [DecidablePred p] :
    Retires db (db.retireHistoryIntents p) := by
  refine ⟨?_, rfl, rfl, rfl, rfl⟩
  obtain ⟨_, frame⟩ := db.store.enqueueEach_frame
    ((db.blobs.intents.rows.filter p).map (·.storageKey))
  simp only [retireHistoryIntents, frame]

theorem retireHistoryTransfers_retires (p : HistoryTransfer → Prop) [DecidablePred p]
    (state : TransferState) (now : Time) : Retires db (db.retireHistoryTransfers p state now) := by
  refine ⟨?_, rfl, rfl, rfl, rfl⟩
  obtain ⟨_, frame⟩ := db.store.enqueueEach_frame
    ((db.blobs.transfers.rows.filter fun t => t.state = .active ∧ p t).filterMap (·.storageKey))
  simp only [retireHistoryTransfers, frame]

theorem retireHistoryForLinks_retires (p : DeviceLink → Prop) [DecidablePred p]
    (now : Time) : Retires db (db.retireHistoryForLinks p now) :=
  (db.retireHistoryIntents_retires _).trans (retireHistoryTransfers_retires _ _ _ _)

theorem deleteDeviceLinks_retires (p : DeviceLink → Prop) [DecidablePred p] :
    Retires db (db.deleteDeviceLinks p) := ⟨rfl, rfl, rfl, rfl, rfl⟩

theorem retireDeviceLinksForDevice_retires (accountID : AccountID) (deviceID : DeviceID)
    (now : Time) : Retires db (db.retireDeviceLinksForDevice accountID deviceID now) :=
  (db.retireHistoryForLinks_retires _ now).trans (deleteDeviceLinks_retires _ _)

theorem retireStaleHistory_retires (now : Time) : Retires db (db.retireStaleHistory now) :=
  ((db.retireHistoryForLinks_retires _ now).trans (retireHistoryIntents_retires _ _)).trans
    (retireHistoryTransfers_retires _ _ _ _)

end

/-- A relation that each retirement of a device's links keeps holds after a list of them. -/
theorem retireEachDevice {R : Database → Prop} (accountID : AccountID) (now : Time)
    (deviceIDs : List DeviceID) {db : Database} (start : R db)
    (keep : ∀ db, ∀ deviceID ∈ deviceIDs, R db → R (db.retireDeviceLinksForDevice accountID deviceID now)) :
    R (deviceIDs.foldl (fun db deviceID => db.retireDeviceLinksForDevice accountID deviceID now) db) := by
  induction deviceIDs generalizing db with
  | nil => exact start
  | cons deviceID rest ih =>
    refine ih (keep db deviceID List.mem_cons_self start) ?_
    intro db deviceID mem
    exact keep db deviceID (List.mem_cons_of_mem _ mem)

theorem retireEachDevice_retires (db : Database) (accountID : AccountID) (now : Time)
    (deviceIDs : List DeviceID) : Retires db
      (deviceIDs.foldl (fun db deviceID => db.retireDeviceLinksForDevice accountID deviceID now) db) :=
  retireEachDevice (R := Retires db) accountID now deviceIDs (.refl db) fun middle deviceID _ retires =>
    retires.trans (middle.retireDeviceLinksForDevice_retires accountID deviceID now)

end Database
end Veritra.Storage
