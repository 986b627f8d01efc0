import Veritra.Model.Storage.CommitBundle

/-! # How a commit changes the roster

A commit ends the rows of the devices it removes and then writes a row for each device it adds. The
change is described twice: row by row, for what a row records about joining and leaving, and by
the set of active devices, for who is in the group.
-/

namespace Veritra.Storage

open Relational

/-- The device has a row that no commit has ended. -/
def Roster.active (roster : Table MLSDevice MLSDevice.key) (conversationID : ConversationID)
    (deviceID : DeviceID) : Prop :=
  ∃ row ∈ roster, row.conversationID = conversationID ∧ row.deviceID = deviceID ∧ row.removedAfterEventID = none

def names (refs : List MLSDeviceRef) (deviceID : DeviceID) : Prop := ∃ ref ∈ refs, ref.deviceID = deviceID

theorem names_cons {ref : MLSDeviceRef} {refs : List MLSDeviceRef} {deviceID : DeviceID} :
    names (ref :: refs) deviceID ↔ ref.deviceID = deviceID ∨ names refs deviceID := by
  simp only [names, List.mem_cons, exists_eq_or_imp]

/-- The later row records the same join as the earlier one. -/
structure MLSDevice.SameJoin (old row : MLSDevice) : Prop where
  key : row.key = old.key
  accountID : row.accountID = old.accountID
  joinedAfterEventID : row.joinedAfterEventID = old.joinedAfterEventID
  joinedEpoch : row.joinedEpoch = old.joinedEpoch

namespace MLSDevice.SameJoin

variable {old row : MLSDevice} (same : old.SameJoin row)
include same

theorem conversationID : row.conversationID = old.conversationID := congrArg Prod.fst same.key
theorem deviceID : row.deviceID = old.deviceID := congrArg Prod.snd same.key

end MLSDevice.SameJoin

/-- The row was there before, and at most ended by this commit. -/
structure Roster.Kept (conversationID : ConversationID) (commitEventID : EventID)
    (removed : List MLSDeviceRef) (old row : MLSDevice) : Prop where
  same : old.SameJoin row
  ended : row.removedAfterEventID = old.removedAfterEventID ∨
    (old.removedAfterEventID = none ∧ row.removedAfterEventID = some commitEventID ∧
      row.conversationID = conversationID ∧ names removed row.deviceID)

/-- The row is the one of a device that this commit adds. -/
structure Roster.Joined (conversationID : ConversationID) (commitEventID : EventID) (epoch : ℕ)
    (added : List MLSDeviceRef) (row : MLSDevice) : Prop where
  conversation : row.conversationID = conversationID
  named : ⟨row.accountID, row.deviceID⟩ ∈ added
  joinedAfterEventID : row.joinedAfterEventID = commitEventID
  joinedEpoch : row.joinedEpoch = epoch
  active : row.removedAfterEventID = none

/-- What one accepted commit does to the roster. -/
structure RosterChange (conversationID : ConversationID) (commitEventID : EventID) (epoch : ℕ)
    (added removed : List MLSDeviceRef) (roster roster' : Table MLSDevice MLSDevice.key) : Prop where
  rows : ∀ row ∈ roster', (∃ old ∈ roster, Roster.Kept conversationID commitEventID removed old row) ∨
    Roster.Joined conversationID commitEventID epoch added row
  active : ∀ conversation device, Roster.active roster' conversation device ↔
    (conversation = conversationID ∧ names added device) ∨
      (Roster.active roster conversation device ∧ ¬ (conversation = conversationID ∧ names removed device))

namespace Roster

variable {row : MLSDevice} {conversation : ConversationID} {device : DeviceID} {now : Time}
  {roster : Table MLSDevice MLSDevice.key} {removed added : List MLSDeviceRef}
  {conversationID : ConversationID} {commitEventID : EventID} {epoch : ℕ}

private theorem key_eq_iff :
    row.key = (conversation, device) ↔ row.conversationID = conversation ∧ row.deviceID = device := by
  simp [MLSDevice.key, Prod.ext_iff]

theorem markSelfUpdate_rows {deviceID : DeviceID}
    (mem : row ∈ markSelfUpdate conversationID deviceID now roster) :
    ∃ old ∈ roster, old.SameJoin row ∧ row.removedAfterEventID = old.removedAfterEventID := by
  rcases Table.mem_update.mp mem with ⟨unchanged, -⟩ | ⟨old, oldMember, -, rfl⟩
  · exact ⟨row, unchanged, ⟨rfl, rfl, rfl, rfl⟩, rfl⟩
  · exact ⟨old, oldMember, ⟨rfl, rfl, rfl, rfl⟩, rfl⟩

theorem markSelfUpdate_active {deviceID : DeviceID} :
    active (markSelfUpdate conversationID deviceID now roster) conversation device ↔
      active roster conversation device := by
  constructor
  · rintro ⟨row, mem, rfl, rfl, live⟩
    obtain ⟨old, oldMember, same, ended⟩ := markSelfUpdate_rows mem
    exact ⟨old, oldMember, same.conversationID.symm, same.deviceID.symm, ended ▸ live⟩
  · rintro ⟨row, mem, rfl, rfl, live⟩
    by_cases hit : row.conversationID = conversationID ∧ row.deviceID = deviceID
    · exact ⟨_, Table.mem_update.mpr (.inr ⟨row, mem, hit, rfl⟩), rfl, rfl, live⟩
    · exact ⟨row, Table.mem_update.mpr (.inl ⟨mem, hit⟩), rfl, rfl, live⟩

theorem leave_rows (mem : row ∈ removed.foldl (leave conversationID commitEventID) roster) :
    ∃ old ∈ roster, Kept conversationID commitEventID removed old row := by
  induction removed generalizing roster with
  | nil => exact ⟨row, mem, ⟨rfl, rfl, rfl, rfl⟩, .inl rfl⟩
  | cons ref rest ih =>
    obtain ⟨middle, middleMember, kept⟩ := ih mem
    have named : names rest row.deviceID → names (ref :: rest) row.deviceID := by
      rintro ⟨other, otherMember, same⟩
      exact ⟨other, .tail _ otherMember, same⟩
    rcases Table.mem_update.mp middleMember with ⟨unchanged, -⟩ | ⟨old, oldMember, hit, rfl⟩
    · exact ⟨middle, unchanged, kept.same, kept.ended.imp_right fun ⟨live, ended, conversation, listed⟩ =>
        ⟨live, ended, conversation, named listed⟩⟩
    · -- The row ended at this reference, so no later reference ends it again.
      have ended : row.removedAfterEventID = some commitEventID := by
        rcases kept.ended with same | ⟨live, -⟩
        · exact same
        · cases live
      obtain ⟨⟨key, account, joined, epoch⟩, -⟩ := kept
      have device : row.deviceID = old.deviceID := congrArg Prod.snd key
      refine ⟨old, oldMember, ⟨key, account, joined, epoch⟩, .inr ⟨hit.2.2, ended, ?_, ?_⟩⟩
      · exact (congrArg Prod.fst key).trans hit.1
      · exact ⟨ref, .head _, hit.2.1.symm.trans device.symm⟩

theorem leave_active :
    active (removed.foldl (leave conversationID commitEventID) roster) conversation device ↔
      active roster conversation device ∧ ¬ (conversation = conversationID ∧ names removed device) := by
  induction removed generalizing roster with
  | nil => simp [names]
  | cons ref rest ih =>
    rw [List.foldl_cons, ih]
    have one : active (leave conversationID commitEventID roster ref) conversation device ↔
        active roster conversation device ∧ ¬ (conversation = conversationID ∧ ref.deviceID = device) := by
      constructor
      · rintro ⟨row, mem, rfl, rfl, live⟩
        rcases Table.mem_update.mp mem with ⟨unchanged, miss⟩ | ⟨old, -, -, rfl⟩
        · exact ⟨⟨row, unchanged, rfl, rfl, live⟩, fun ⟨here, same⟩ => miss ⟨here, same.symm, live⟩⟩
        · cases live
      · rintro ⟨⟨row, mem, rfl, rfl, live⟩, miss⟩
        exact ⟨row, Table.mem_update.mpr (.inl ⟨mem, fun ⟨here, same, _⟩ => miss ⟨here, same.symm⟩⟩), rfl, rfl, live⟩
    rw [one, names_cons]
    tauto

theorem join_rows (mem : row ∈ added.foldl (join conversationID commitEventID epoch) roster) :
    row ∈ roster ∨ Joined conversationID commitEventID epoch added row := by
  induction added generalizing roster with
  | nil => exact .inl mem
  | cons ref rest ih =>
    rcases ih mem with middleMember | ⟨conversation, named, after, joined, live⟩
    · rcases Table.mem_upsert.mp middleMember with ⟨unchanged, -⟩ | ⟨old, -, same, rfl⟩ | ⟨-, rfl⟩
      · exact .inl unchanged
      · obtain ⟨conversation, device⟩ := key_eq_iff.mp same
        refine .inr ⟨conversation, ?_, rfl, rfl, rfl⟩
        rw [show (⟨ref.accountID, old.deviceID⟩ : MLSDeviceRef) = ref by rw [device]]
        exact .head _
      · exact .inr ⟨rfl, .head _, rfl, rfl, rfl⟩
    · exact .inr ⟨conversation, .tail _ named, after, joined, live⟩

theorem join_active :
    active (added.foldl (join conversationID commitEventID epoch) roster) conversation device ↔
      (conversation = conversationID ∧ names added device) ∨ active roster conversation device := by
  induction added generalizing roster with
  | nil => simp [names]
  | cons ref rest ih =>
    rw [List.foldl_cons, ih]
    have one : active (join conversationID commitEventID epoch roster ref) conversation device ↔
        (conversation = conversationID ∧ ref.deviceID = device) ∨ active roster conversation device := by
      constructor
      · rintro ⟨row, mem, rfl, rfl, live⟩
        rcases Table.mem_upsert.mp mem with ⟨unchanged, -⟩ | ⟨old, -, same, rfl⟩ | ⟨-, rfl⟩
        · exact .inr ⟨row, unchanged, rfl, rfl, live⟩
        · obtain ⟨here, same⟩ := key_eq_iff.mp same
          exact .inl ⟨here, same.symm⟩
        · exact .inl ⟨rfl, rfl⟩
      · rintro (⟨rfl, rfl⟩ | ⟨row, mem, rfl, rfl, live⟩)
        · by_cases known : ∃ old ∈ roster, old.key = (conversation, ref.deviceID)
          · obtain ⟨old, oldMember, same⟩ := known
            obtain ⟨here, device⟩ := key_eq_iff.mp same
            exact ⟨_, Table.mem_upsert.mpr (.inr (.inl ⟨old, oldMember, same, rfl⟩)), here, device, rfl⟩
          · refine ⟨_, Table.mem_upsert.mpr (.inr (.inr ⟨?_, rfl⟩)), rfl, rfl, rfl⟩
            intro old oldMember same
            exact known ⟨old, oldMember, same⟩
        · by_cases same : row.key = (conversationID, ref.deviceID)
          · exact ⟨_, Table.mem_upsert.mpr (.inr (.inl ⟨row, mem, same, rfl⟩)), rfl, rfl, rfl⟩
          · exact ⟨row, Table.mem_upsert.mpr (.inl ⟨mem, same⟩), rfl, rfl, live⟩
    rw [one, names_cons]
    tauto

/-- The whole change of a commit: an optional self-update mark, the removals, then the additions. -/
theorem change {marked : Table MLSDevice MLSDevice.key}
    (mark : ∀ row ∈ marked, ∃ old ∈ roster, old.SameJoin row ∧ row.removedAfterEventID = old.removedAfterEventID)
    (markActive : ∀ conversation device, active marked conversation device ↔ active roster conversation device) :
    RosterChange conversationID commitEventID epoch added removed roster
      (added.foldl (join conversationID commitEventID epoch)
        (removed.foldl (leave conversationID commitEventID) marked)) where
  rows := by
    intro row mem
    rcases join_rows mem with old | joined
    · obtain ⟨middle, middleMember, ⟨same, ended⟩⟩ := leave_rows old
      obtain ⟨first, firstMember, sameFirst, endedFirst⟩ := mark middle middleMember
      refine .inl ⟨first, firstMember, ⟨?_, ?_⟩⟩
      · exact ⟨same.key.trans sameFirst.key, same.accountID.trans sameFirst.accountID,
          same.joinedAfterEventID.trans sameFirst.joinedAfterEventID,
          same.joinedEpoch.trans sameFirst.joinedEpoch⟩
      · rw [← endedFirst]
        exact ended
    · exact .inr joined
  active := by
    intro conversation device
    rw [join_active, leave_active, markActive]

end Roster
end Veritra.Storage
